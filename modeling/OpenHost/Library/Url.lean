import Mathlib.Data.List.Basic
import OpenHost.Library.Fields
import OpenHost.Library.Utf8

/-!
# URLs as bytes

Percent-encoding, the parts of a URL and the removal of dot segments, as RFC 3986 defines them.
Everything here works on the bytes of a URL.
-/

namespace OpenHost.Url

open Utf8 (Bytes)

/-! ## Reserved bytes -/

abbrev slash : UInt8 := 0x2F
abbrev colon : UInt8 := 0x3A
abbrev question : UInt8 := 0x3F
abbrev hash : UInt8 := 0x23
abbrev percent : UInt8 := 0x25

/-- The segment `.`. -/
abbrev dotSegment : Bytes := [0x2E]

/-- The segment `..`. -/
abbrev dotDotSegment : Bytes := [0x2E, 0x2E]

/-! ## Percent-encoding -/

/-- The value of a hexadecimal digit of either case. -/
def hexValue? (b : UInt8) : Option UInt8 :=
  if 0x30 ≤ b && b ≤ 0x39 then some (b - 0x30)
  else if 0x41 ≤ b && b ≤ 0x46 then some (b - 0x37)
  else if 0x61 ≤ b && b ≤ 0x66 then some (b - 0x57)
  else none

/-- The byte that the two digits after a `%` stand for. -/
def escaped? (h l : UInt8) : Option UInt8 :=
  match hexValue? h, hexValue? l with
  | some a, some b => some (a * 16 + b)
  | _, _ => none

/-- `urllib.parse.unquote_to_bytes`: a `%` that is not followed by two digits stands for itself. -/
def unquote : Bytes → Bytes
  | [] => []
  | [b] => [b]
  | [b, c] => [b, c]
  | b :: h :: l :: rest =>
      if b = percent then
        match escaped? h l with
        | some e => e :: unquote rest
        | none => b :: unquote (h :: l :: rest)
      else b :: unquote (h :: l :: rest)

/-- No `%` is followed by two hexadecimal digits. -/
def unescaped : Bytes → Bool
  | b :: h :: l :: rest =>
      !(b = percent && (escaped? h l).isSome) && unescaped (h :: l :: rest)
  | _ => true

/-- The upper-case hexadecimal digit of a value below 16. -/
def hexDigit (n : UInt8) : UInt8 := if n < 10 then n + 0x30 else n + 0x37

/-- Every byte written as an escape. -/
def quoteAll (bs : Bytes) : Bytes :=
  bs.flatMap fun b => [percent, hexDigit (b / 16), hexDigit (b % 16)]

/-- The two digits written for a byte are read back as that byte. -/
theorem escaped?_hexDigits (b : UInt8) :
    escaped? (hexDigit (b / 16)) (hexDigit (b % 16)) = some b := by
  have key : ∀ n : Fin 256, escaped? (hexDigit (UInt8.ofFin n / 16))
      (hexDigit (UInt8.ofFin n % 16)) = some (UInt8.ofFin n) := by
    decide +kernel
  exact key b.toFin

theorem unquote_quoteAll_append (bs rest : Bytes) :
    unquote (quoteAll bs ++ rest) = bs ++ unquote rest := by
  induction bs with
  | nil => rfl
  | cons b bs ih =>
    show unquote (percent :: hexDigit (b / 16) :: hexDigit (b % 16) :: (quoteAll bs ++ rest)) = _
    simp only [unquote, escaped?_hexDigits, ih, if_pos]
    rfl

/-- Decoding never makes a text longer. -/
theorem length_unquote_le (bs : Bytes) : (unquote bs).length ≤ bs.length := by
  fun_induction unquote bs with
  | case1 => simp
  | case2 => simp
  | case3 => simp
  | case4 h l rest e he ih => simp only [List.length_cons]; omega
  | case5 h l rest he ih => simp only [List.length_cons] at ih ⊢; omega
  | case6 b h l rest hb ih => simp only [List.length_cons] at ih ⊢; omega

/-- A text without escapes is read as itself, and no other text is. -/
theorem unquote_eq_self_iff (bs : Bytes) : unquote bs = bs ↔ unescaped bs = true := by
  fun_induction unquote bs with
  | case1 => simp [unescaped]
  | case2 => simp [unescaped]
  | case3 => simp [unescaped]
  | case4 h l rest e he ih =>
    -- three bytes became one, so the text got shorter
    have hlen := length_unquote_le rest
    constructor
    · intro heq
      have hl := congrArg List.length heq
      simp only [List.length_cons] at hl
      omega
    · intro hun
      simp [unescaped, he] at hun
  | case5 h l rest he ih => simp [unescaped, he, ih]
  | case6 b h l rest hb ih => simp [unescaped, hb, ih]

theorem unescaped_of_not_mem {bs : Bytes} (h : percent ∉ bs) : unescaped bs = true := by
  fun_induction unescaped bs with
  | case1 b hi l rest ih =>
    have hb : b ≠ percent := fun hb => h (hb ▸ List.mem_cons_self)
    simp [hb, ih fun hmem => h (List.mem_cons_of_mem b hmem)]
  | case2 => rfl

theorem unquote_cons_of_ne {b : UInt8} (h : b ≠ percent) (bs : Bytes) :
    unquote (b :: bs) = b :: unquote bs := by
  match bs with
  | [] => rfl
  | [c] => rfl
  | c :: d :: rest => simp [unquote, h]

/-- A byte that `quote` leaves alone: a letter, a digit or one of `_.-~`. -/
def isUnreserved (b : UInt8) : Bool :=
  (0x30 ≤ b && b ≤ 0x39) || (0x41 ≤ b && b ≤ 0x5A) || (0x61 ≤ b && b ≤ 0x7A) ||
    b = 0x5F || b = 0x2E || b = 0x2D || b = 0x7E

/-- `urllib.parse.quote` with no further safe characters. -/
def quote (bs : Bytes) : Bytes :=
  bs.flatMap fun b =>
    if isUnreserved b then [b] else [percent, hexDigit (b / 16), hexDigit (b % 16)]

/-- Quoted text is ASCII. -/
theorem ascii_of_mem_quote {bs : Bytes} {b : UInt8} (h : b ∈ quote bs) : b < 0x80 := by
  have key : ∀ n : Fin 256, (quote [UInt8.ofFin n]).all (· < 0x80) = true := by decide +kernel
  obtain ⟨a, -, ha⟩ := List.mem_flatMap.mp h
  have hsingle : b ∈ quote [a] := List.mem_flatMap.mpr ⟨a, List.mem_singleton_self a, ha⟩
  simpa using List.all_eq_true.mp (key a.toFin) b hsingle

theorem unquote_quote_append (bs rest : Bytes) : unquote (quote bs ++ rest) = bs ++ unquote rest := by
  induction bs with
  | nil => rfl
  | cons b bs ih =>
    have hcons : quote (b :: bs) = (if isUnreserved b then [b]
        else [percent, hexDigit (b / 16), hexDigit (b % 16)]) ++ quote bs := rfl
    rw [hcons]
    split
    · rename_i hb
      have hne : b ≠ percent := by
        rintro rfl
        exact absurd hb (by decide)
      rw [List.append_assoc, List.singleton_append, unquote_cons_of_ne hne, ih, List.cons_append]
    · show unquote (percent :: hexDigit (b / 16) :: hexDigit (b % 16) :: (quote bs ++ rest)) = _
      simp only [unquote, escaped?_hexDigits, ih, if_pos, List.cons_append]

/-- What was quoted is read back. -/
@[simp] theorem unquote_quote (bs : Bytes) : unquote (quote bs) = bs := by
  simpa [unquote] using unquote_quote_append bs []

/-! ## Form encoding -/

abbrev plus : UInt8 := 0x2B
abbrev space : UInt8 := 0x20
abbrev ampersand : UInt8 := 0x26
abbrev equals : UInt8 := 0x3D

/-- `urllib.parse.quote_plus` -/
def quotePlus (bs : Bytes) : Bytes := bs.flatMap fun b => if b = space then [plus] else quote [b]

/-- `urllib.parse.unquote_plus` -/
def unquotePlus (bs : Bytes) : Bytes := unquote (bs.map fun b => if b = plus then space else b)

/-- `urllib.parse.urlencode` -/
def urlencode (params : List (Bytes × Bytes)) : Bytes :=
  [ampersand].intercalate (params.map fun p => quotePlus p.1 ++ equals :: quotePlus p.2)

/-- `urllib.parse.parse_qsl` for a query in which every field has a value. -/
def parseQuery (query : Bytes) : List (Bytes × Bytes) :=
  (query.splitOn ampersand).map fun field =>
    (unquotePlus (field.takeWhile (· ≠ equals)), unquotePlus (field.dropWhile (· ≠ equals)).tail)

/-- What is quoted holds no character with a meaning in a form. -/
theorem plain_of_mem_quote {bs : Bytes} {b : UInt8} (h : b ∈ quote bs) :
    b ≠ plus ∧ b ≠ ampersand ∧ b ≠ equals ∧ b ≠ hash := by
  have key : ∀ n : Fin 256, (quote [UInt8.ofFin n]).all
      (fun b => b ≠ plus && b ≠ ampersand && b ≠ equals && b ≠ hash) = true := by decide +kernel
  obtain ⟨a, -, ha⟩ := List.mem_flatMap.mp h
  have hsingle : b ∈ quote [a] := List.mem_flatMap.mpr ⟨a, List.mem_singleton_self a, ha⟩
  simpa [and_assoc] using List.all_eq_true.mp (key a.toFin) b hsingle

theorem plain_of_mem_quotePlus {bs : Bytes} {b : UInt8} (h : b ∈ quotePlus bs) :
    b < 0x80 ∧ b ≠ ampersand ∧ b ≠ equals ∧ b ≠ hash := by
  obtain ⟨a, -, ha⟩ := List.mem_flatMap.mp h
  split at ha
  · rw [List.mem_singleton.mp ha]
    decide
  · exact ⟨ascii_of_mem_quote ha, (plain_of_mem_quote ha).2⟩

@[simp] theorem unquotePlus_quotePlus (bs : Bytes) : unquotePlus (quotePlus bs) = bs := by
  induction bs with
  | nil => rfl
  | cons b bs ih =>
    have hcons : quotePlus (b :: bs) = (if b = space then [plus] else quote [b]) ++ quotePlus bs := rfl
    rw [hcons, unquotePlus, List.map_append]
    split
    · next hb =>
      have hne : space ≠ percent := by decide
      rw [List.map_singleton, if_pos rfl, List.singleton_append, unquote_cons_of_ne hne, hb]
      exact congrArg _ ih
    · have hkeep : (quote [b]).map (fun b => if b = plus then space else b) = quote [b] := by
        conv_rhs => rw [← List.map_id (quote [b])]
        apply List.map_congr_left
        intro a ha
        rw [if_neg (plain_of_mem_quote ha).1, id]
      rw [hkeep, unquote_quote_append, List.singleton_append]
      exact congrArg _ ih

/-- A form is ASCII without a fragment. -/
theorem plain_of_mem_urlencode {params : List (Bytes × Bytes)} {b : UInt8} (h : b ∈ urlencode params) :
    b < 0x80 ∧ b ≠ hash := by
  have hfield : ∀ p : Bytes × Bytes, b ∈ quotePlus p.1 ++ equals :: quotePlus p.2 →
      b < 0x80 ∧ b ≠ hash := by
    intro p hp
    rcases List.mem_append.mp hp with hp | hp
    · exact ⟨(plain_of_mem_quotePlus hp).1, (plain_of_mem_quotePlus hp).2.2.2⟩
    rcases List.mem_cons.mp hp with rfl | hp
    · decide
    · exact ⟨(plain_of_mem_quotePlus hp).1, (plain_of_mem_quotePlus hp).2.2.2⟩
  unfold urlencode at h
  induction params with
  | nil => cases h
  | cons p ps ih =>
    cases ps with
    | nil =>
      rw [List.map_singleton, List.intercalate_singleton] at h
      exact hfield p h
    | cons q ps =>
      rw [List.map_cons, List.map_cons, List.intercalate_cons_cons] at h
      rcases List.mem_append.mp h with h | h
      · rcases List.mem_append.mp h with h | h
        · exact hfield p h
        · rw [List.mem_singleton.mp h]
          decide
      · exact ih h

/-- The fields of an encoded form are read back. -/
theorem parseQuery_urlencode {params : List (Bytes × Bytes)} (h : params ≠ []) :
    parseQuery (urlencode params) = params := by
  have hsplit : (urlencode params).splitOn ampersand =
      params.map fun p => quotePlus p.1 ++ equals :: quotePlus p.2 := by
    refine List.splitOn_intercalate ampersand ?_ (by simpa using h)
    intro field hfield hmem
    obtain ⟨p, -, rfl⟩ := List.mem_map.mp hfield
    rcases List.mem_append.mp hmem with hmem | hmem
    · exact (plain_of_mem_quotePlus hmem).2.1 rfl
    rcases List.mem_cons.mp hmem with heq | hmem
    · exact absurd heq (by decide)
    · exact (plain_of_mem_quotePlus hmem).2.1 rfl
  rw [parseQuery, hsplit, List.map_map]
  conv_rhs => rw [← List.map_id params]
  apply List.map_congr_left
  intro p _
  have hname : ∀ b ∈ quotePlus p.1, decide (b ≠ equals) = true := fun b hb =>
    decide_eq_true (plain_of_mem_quotePlus hb).2.2.1
  rw [Function.comp_apply, List.takeWhile_append_of_pos hname, List.dropWhile_append_of_pos hname]
  simp

/-! ## Dot segments -/

/-- What is left of the segments of a path once its dot segments are removed (RFC 3986, 5.2.4):
`out` holds the segments kept so far, the last one first. -/
def resolve : List Bytes → List Bytes → List Bytes
  | out, [] => out.reverse
  | out, [s] =>
      -- a dot segment at the end leaves the slash before it
      if s = dotSegment then ([] :: out).reverse
      else if s = dotDotSegment then ([] :: out.tail).reverse
      else (s :: out).reverse
  | out, s :: t :: rest =>
      if s = dotSegment then resolve out (t :: rest)
      else if s = dotDotSegment then resolve out.tail (t :: rest)
      else resolve (s :: out) (t :: rest)

/-- The segments of an absolute path. -/
def segments (p : Bytes) : List Bytes := p.tail.splitOn slash

/-- The absolute path with these segments. -/
def ofSegments (segs : List Bytes) : Bytes := slash :: [slash].intercalate segs

/-- The absolute path without its dot segments. -/
def removeDots (p : Bytes) : Bytes := ofSegments (resolve [] (segments p))

/-- The segment is neither `.` nor `..`. -/
def plainSegment (s : Bytes) : Bool := s ≠ dotSegment && s ≠ dotDotSegment

/-- The segments never go above the place `depth` levels below which they start. -/
def staysWithin : Nat → List Bytes → Bool
  | _, [] => true
  | depth, s :: rest =>
      if s = dotSegment then staysWithin depth rest
      else if s = dotDotSegment then 0 < depth && staysWithin (depth - 1) rest
      else staysWithin (depth + 1) rest

theorem ne_dots_of_plain {s : Bytes} (h : plainSegment s = true) :
    s ≠ dotSegment ∧ s ≠ dotDotSegment := by
  simpa [plainSegment] using h

@[simp] theorem plainSegment_nil : plainSegment [] = true := by decide

theorem resolve_append_of_plain {pre : List Bytes} (hpre : ∀ s ∈ pre, plainSegment s = true)
    (out segs : List Bytes) (hne : segs ≠ []) :
    resolve out (pre ++ segs) = resolve (pre.reverse ++ out) segs := by
  induction pre generalizing out with
  | nil => rfl
  | cons s pre ih =>
    obtain ⟨h1, h2⟩ := ne_dots_of_plain (hpre s List.mem_cons_self)
    have hrest := ih (fun t ht => hpre t (List.mem_cons_of_mem s ht))
    obtain ⟨t, rest, ht⟩ : ∃ t rest, pre ++ segs = t :: rest := by
      cases h : pre ++ segs with
      | nil => exact absurd (List.append_eq_nil_iff.mp h).2 hne
      | cons t rest => exact ⟨t, rest, rfl⟩
    rw [List.cons_append, ht]
    simp only [resolve, if_neg h1, if_neg h2]
    rw [← ht, hrest]
    simp

theorem resolve_of_plain {segs : List Bytes} (h : ∀ s ∈ segs, plainSegment s = true)
    (out : List Bytes) : resolve out segs = out.reverse ++ segs := by
  rcases List.eq_nil_or_concat segs with rfl | ⟨pre, s, rfl⟩
  · simp [resolve]
  · obtain ⟨h1, h2⟩ := ne_dots_of_plain (h s (by simp))
    rw [List.concat_eq_append, resolve_append_of_plain (fun t ht => h t (by simp [ht])) _ _ (by simp)]
    simp [resolve, h1, h2]

/-- No dot segment is left. -/
theorem plain_of_mem_resolve {out segs : List Bytes} (hout : ∀ s ∈ out, plainSegment s = true) :
    ∀ s ∈ resolve out segs, plainSegment s = true := by
  have htail : ∀ {l : List Bytes}, (∀ s ∈ l, plainSegment s = true) →
      ∀ s ∈ l.tail, plainSegment s = true := fun hl s hs => hl s (List.mem_of_mem_tail hs)
  fun_induction resolve out segs with
  | case1 out => simpa using hout
  | case2 out =>
    intro s hs
    rcases List.mem_cons.mp (List.mem_reverse.mp hs) with rfl | hs
    · simp
    · exact hout s hs
  | case3 out _ =>
    intro s hs
    rcases List.mem_cons.mp (List.mem_reverse.mp hs) with rfl | hs
    · simp
    · exact htail hout s hs
  | case4 out s h1 h2 =>
    intro t ht
    rcases List.mem_cons.mp (List.mem_reverse.mp ht) with rfl | ht
    · simp [plainSegment, h1, h2]
    · exact hout t ht
  | case5 out t rest ih => exact ih hout
  | case6 out t rest _ ih => exact ih (htail hout)
  | case7 out s t rest h1 h2 ih =>
    apply ih
    intro u hu
    rcases List.mem_cons.mp hu with rfl | hu
    · simp [plainSegment, h1, h2]
    · exact hout u hu

/-- Segments that stay within keep everything below the place they start from. -/
theorem resolve_of_staysWithin {segs : List Bytes} (hne : segs ≠ []) (x base : List Bytes)
    (h : staysWithin x.length segs = true) :
    ∃ ys, ys ≠ [] ∧ resolve (x ++ base) segs = base.reverse ++ ys := by
  induction segs generalizing x with
  | nil => exact absurd rfl hne
  | cons s segs ih =>
    by_cases h1 : s = dotSegment
    · -- `.` changes nothing
      have hrest : staysWithin x.length segs = true := by simpa [staysWithin, h1] using h
      cases segs with
      | nil => exact ⟨x.reverse ++ [[]], by simp, by simp [resolve, h1]⟩
      | cons t rest =>
        obtain ⟨ys, hys, heq⟩ := ih (by simp) x hrest
        exact ⟨ys, hys, by simpa [resolve, h1] using heq⟩
    · by_cases h2 : s = dotDotSegment
      · -- `..` drops one of the segments of `x`
        have hne12 : dotDotSegment ≠ dotSegment := by decide
        obtain ⟨hpos, hrest⟩ : 0 < x.length ∧ staysWithin (x.length - 1) segs = true := by
          simpa [staysWithin, h2, hne12] using h
        obtain ⟨y, x', rfl⟩ : ∃ y x', x = y :: x' := by
          cases x with
          | nil => simp at hpos
          | cons y x' => exact ⟨y, x', rfl⟩
        have hrest' : staysWithin x'.length segs = true := by simpa using hrest
        cases segs with
        | nil => exact ⟨x'.reverse ++ [[]], by simp, by simp [resolve, h2]⟩
        | cons t rest =>
          obtain ⟨ys, hys, heq⟩ := ih (by simp) x' hrest'
          exact ⟨ys, hys, by simpa [resolve, h2] using heq⟩
      · have hrest : staysWithin (s :: x).length segs = true := by
          simpa [staysWithin, h1, h2] using h
        cases segs with
        | nil => exact ⟨x.reverse ++ [s], by simp, by simp [resolve, h1, h2]⟩
        | cons t rest =>
          obtain ⟨ys, hys, heq⟩ := ih (by simp) (s :: x) hrest
          exact ⟨ys, hys, by simpa [resolve, h1, h2] using heq⟩

/-- Resolving introduces no segment but the empty one. -/
theorem mem_of_mem_resolve {out segs : List Bytes} :
    ∀ s ∈ resolve out segs, s = [] ∨ s ∈ out ∨ s ∈ segs := by
  fun_induction resolve out segs with
  | case1 out =>
    intro s hs
    exact Or.inr (Or.inl (List.mem_reverse.mp hs))
  | case2 out =>
    intro s hs
    rcases List.mem_cons.mp (List.mem_reverse.mp hs) with rfl | hs
    · exact Or.inl rfl
    · exact Or.inr (Or.inl hs)
  | case3 out _ =>
    intro s hs
    rcases List.mem_cons.mp (List.mem_reverse.mp hs) with rfl | hs
    · exact Or.inl rfl
    · exact Or.inr (Or.inl (List.mem_of_mem_tail hs))
  | case4 out s _ _ =>
    intro t ht
    rcases List.mem_cons.mp (List.mem_reverse.mp ht) with rfl | ht
    · exact Or.inr (Or.inr List.mem_cons_self)
    · exact Or.inr (Or.inl ht)
  | case5 out t rest ih =>
    intro s hs
    rcases ih s hs with h | h | h
    · exact Or.inl h
    · exact Or.inr (Or.inl h)
    · exact Or.inr (Or.inr (List.mem_cons_of_mem _ h))
  | case6 out t rest _ ih =>
    intro s hs
    rcases ih s hs with h | h | h
    · exact Or.inl h
    · exact Or.inr (Or.inl (List.mem_of_mem_tail h))
    · exact Or.inr (Or.inr (List.mem_cons_of_mem _ h))
  | case7 out u t rest _ _ ih =>
    intro s hs
    rcases ih s hs with h | h | h
    · exact Or.inl h
    · rcases List.mem_cons.mp h with rfl | h
      · exact Or.inr (Or.inr List.mem_cons_self)
      · exact Or.inr (Or.inl h)
    · exact Or.inr (Or.inr (List.mem_cons_of_mem _ h))

theorem resolve_ne_nil (out : List Bytes) {segs : List Bytes} (hne : segs ≠ []) :
    resolve out segs ≠ [] := by
  fun_induction resolve out segs with
  | case1 => exact absurd rfl hne
  | case2 => simp
  | case3 => simp
  | case4 => simp
  | case5 out t rest ih => exact ih (by simp)
  | case6 out t rest _ ih => exact ih (by simp)
  | case7 out s t rest _ _ ih => exact ih (by simp)

/-- An initial part of segments that stay within stays within. -/
theorem staysWithin_take {depth : Nat} {segs : List Bytes} (h : staysWithin depth segs = true)
    (n : Nat) : staysWithin depth (segs.take n) = true := by
  induction segs generalizing depth n with
  | nil => simpa using h
  | cons s segs ih =>
    cases n with
    | zero => rfl
    | succ n =>
      rw [List.take_succ_cons]
      by_cases h1 : s = dotSegment
      · simp only [staysWithin, if_pos h1] at h ⊢
        exact ih h n
      · by_cases h2 : s = dotDotSegment
        · simp only [staysWithin, if_neg h1, if_pos h2, Bool.and_eq_true] at h ⊢
          exact ⟨h.1, ih h.2 n⟩
        · simp only [staysWithin, if_neg h1, if_neg h2] at h ⊢
          exact ih h n

/-- Segments that do not stay within drop, at some point, a segment below the place they start
from. -/
theorem length_resolve_of_not_staysWithin (base : List Bytes) {segs : List Bytes} {x : List Bytes}
    (h : staysWithin x.length segs = false) :
    ∃ n, (resolve (x ++ base) (segs.take (n + 1))).length ≤ base.tail.length + 1 := by
  induction segs generalizing x with
  | nil => simp [staysWithin] at h
  | cons s segs ih =>
    have hcut : ∀ n, (s :: segs).take (n + 1 + 1) = s :: segs.take (n + 1) := fun n => rfl
    by_cases h1 : s = dotSegment
    · -- `.` changes nothing
      simp only [staysWithin, if_pos h1] at h
      obtain ⟨n, hn⟩ := ih h
      refine ⟨n + 1, ?_⟩
      rw [hcut]
      cases htake : segs.take (n + 1) with
      | nil =>
        have hsegs : segs = [] := by simpa using htake
        rw [hsegs] at h
        simp [staysWithin] at h
      | cons t rest =>
        rw [htake] at hn
        simpa only [resolve, if_pos h1] using hn
    · by_cases h2 : s = dotDotSegment
      · have hne12 : dotDotSegment ≠ dotSegment := by decide
        cases x with
        | nil =>
          -- this is the segment that leads out
          refine ⟨0, ?_⟩
          simp [resolve, h2]
        | cons y x =>
          have hrest : staysWithin x.length segs = false := by
            simpa [staysWithin, h2, hne12] using h
          obtain ⟨n, hn⟩ := ih hrest
          refine ⟨n + 1, ?_⟩
          rw [hcut]
          cases htake : segs.take (n + 1) with
          | nil =>
            have hsegs : segs = [] := by simpa using htake
            rw [hsegs] at hrest
            simp [staysWithin] at hrest
          | cons t rest =>
            rw [htake] at hn
            simpa only [resolve, if_neg h1, if_pos h2, List.cons_append, List.tail_cons] using hn
      · have hrest : staysWithin (s :: x).length segs = false := by
          simpa [staysWithin, h1, h2] using h
        obtain ⟨n, hn⟩ := ih hrest
        refine ⟨n + 1, ?_⟩
        rw [hcut]
        cases htake : segs.take (n + 1) with
        | nil =>
          have hsegs : segs = [] := by simpa using htake
          rw [hsegs] at hrest
          simp [staysWithin] at hrest
        | cons t rest =>
          rw [htake] at hn
          simpa only [resolve, if_neg h1, if_neg h2, List.cons_append] using hn

/-! ## Paths and their segments -/

/-- The segments of a path that was put together from segments. -/
theorem segments_ofSegments {segs : List Bytes} (hne : segs ≠ [])
    (hno : ∀ s ∈ segs, slash ∉ s) : segments (ofSegments segs) = segs := by
  rw [segments, ofSegments, List.tail_cons]
  exact List.splitOn_intercalate slash hno hne

/-- The segments of a path once its dot segments are removed. -/
theorem segments_removeDots (p : Bytes) :
    segments (removeDots p) = resolve [] (segments p) := by
  have hne : segments p ≠ [] := List.splitOn_ne_nil slash p.tail
  apply segments_ofSegments (resolve_ne_nil [] hne)
  intro s hs
  rcases mem_of_mem_resolve s hs with rfl | h | h
  · simp
  · cases h
  · exact Text.not_mem_of_mem_splitOn h

theorem ofSegments_segments {p : Bytes} (h : p.head? = some slash) : ofSegments (segments p) = p := by
  cases p with
  | nil => simp at h
  | cons b p =>
    have hb : b = slash := by simpa using h
    simp [ofSegments, segments, hb]

/-- The segments before and after a slash. -/
theorem segments_append (e s : Bytes) :
    segments (slash :: (e ++ slash :: s)) = e.splitOn slash ++ s.splitOn slash := by
  rw [segments, List.tail_cons, List.splitOn_append_cons_self]

theorem ofSegments_append {a b : List Bytes} (ha : a ≠ []) (hb : b ≠ []) :
    ofSegments (a ++ b) = ofSegments a ++ slash :: [slash].intercalate b := by
  induction a with
  | nil => exact absurd rfl ha
  | cons x a ih =>
    cases a with
    | nil =>
      obtain ⟨y, b, rfl⟩ := List.exists_cons_of_ne_nil hb
      simp [ofSegments, List.intercalate_cons_cons]
    | cons y a =>
      have hrest := ih (by simp)
      simp only [ofSegments, List.cons_append, List.cons.injEq, true_and] at hrest ⊢
      rw [List.intercalate_cons_cons, hrest, List.intercalate_cons_cons]
      simp

/-- An initial part of the segments of a path, put together and taken apart again. -/
theorem splitOn_intercalate_take (t : Bytes) (n : Nat) :
    ([slash].intercalate ((t.splitOn slash).take (n + 1))).splitOn slash =
      (t.splitOn slash).take (n + 1) := by
  apply List.splitOn_intercalate
  · intro l hl
    exact Text.not_mem_of_mem_splitOn (List.mem_of_mem_take hl)
  · intro h
    have hne := List.splitOn_ne_nil slash t
    simp [List.take_eq_nil_iff, hne] at h

/-- A path below a prefix without dot segments stays below it when its segments stay within. -/
theorem removeDots_below {e s : Bytes} (hplain : ∀ x ∈ e.splitOn slash, plainSegment x = true)
    (h : staysWithin 0 (s.splitOn slash) = true) :
    ∃ r, removeDots (slash :: (e ++ slash :: s)) = slash :: (e ++ slash :: r) := by
  have hne := List.splitOn_ne_nil slash s
  obtain ⟨ys, hys, heq⟩ :=
    resolve_of_staysWithin hne [] (e.splitOn slash).reverse (by simpa using h)
  refine ⟨[slash].intercalate ys, ?_⟩
  rw [removeDots, segments_append, resolve_append_of_plain hplain _ _ hne, List.append_nil]
  rw [List.nil_append, List.reverse_reverse] at heq
  rw [heq, ofSegments_append (List.splitOn_ne_nil slash e) hys, ofSegments,
    List.intercalate_splitOn, List.cons_append]

/-- A prefix that is still there once the dot segments are removed has none itself. -/
theorem plain_of_removeDots_below {e s r : Bytes}
    (h : removeDots (slash :: (e ++ slash :: s)) = slash :: (e ++ slash :: r)) :
    ∀ x ∈ e.splitOn slash, plainSegment x = true := by
  intro x hx
  have hsegs := segments_removeDots (slash :: (e ++ slash :: s))
  rw [h, segments_append] at hsegs
  have hmem : x ∈ resolve [] (segments (slash :: (e ++ slash :: s))) := by
    rw [← hsegs]
    exact List.mem_append_left _ hx
  exact plain_of_mem_resolve (by simp) x hmem

/-- Where every initial part of a path is still below a prefix once its dot segments are removed,
its segments stay within. -/
theorem staysWithin_of_removeDots_below {e t : Bytes}
    (h : ∀ n, ∃ r, removeDots (slash :: (e ++ slash ::
      [slash].intercalate ((t.splitOn slash).take (n + 1)))) = slash :: (e ++ slash :: r)) :
    staysWithin 0 (t.splitOn slash) = true := by
  obtain ⟨r, hr⟩ := h 0
  have hplain := plain_of_removeDots_below hr
  by_contra hout
  obtain ⟨n, hn⟩ := length_resolve_of_not_staysWithin (x := [])
    (e.splitOn slash).reverse (by simpa using hout)
  -- that part keeps too few segments to be below the prefix
  obtain ⟨r, hr⟩ := h n
  have hsegs := congrArg segments hr
  rw [segments_removeDots, segments_append, segments_append, splitOn_intercalate_take] at hsegs
  have htake : (t.splitOn slash).take (n + 1) ≠ [] := by
    rw [← splitOn_intercalate_take]
    exact List.splitOn_ne_nil _ _
  rw [resolve_append_of_plain hplain _ _ htake, List.append_nil] at hsegs
  have hlen := congrArg List.length hsegs
  have hr' := List.length_pos_of_ne_nil (List.splitOn_ne_nil slash r)
  have he' := List.length_pos_of_ne_nil (List.splitOn_ne_nil slash e)
  rw [List.nil_append, hlen] at hn
  simp only [List.length_append, List.length_tail, List.length_reverse] at hn
  omega

/-- A segment and the `..` after it cancel out. -/
theorem removeDots_dotDot {s : Bytes} (hplain : plainSegment s = true) (hno : slash ∉ s) :
    removeDots (slash :: (s ++ slash :: dotDotSegment)) = [slash] := by
  obtain ⟨h1, h2⟩ := ne_dots_of_plain hplain
  have hne : dotDotSegment ≠ dotSegment := by decide
  have hup : dotDotSegment.splitOn slash = [dotDotSegment] :=
    List.splitOn_eq_singleton (by decide)
  rw [removeDots, segments_append, List.splitOn_eq_singleton hno, hup, List.singleton_append]
  simp only [resolve, if_neg h1, if_neg h2, if_neg hne, if_true, List.tail_cons]
  decide

/-- A path without dot segments is left as it is. -/
theorem removeDots_of_plain {p : Bytes} (h : p.head? = some slash)
    (hplain : ∀ s ∈ segments p, plainSegment s = true) : removeDots p = p := by
  rw [removeDots, resolve_of_plain hplain, List.reverse_nil, List.nil_append,
    ofSegments_segments h]

/-! ## The parts of a URL -/

/-- The byte ends the authority of a URL. -/
def endsAuthority (b : UInt8) : Bool := b = slash || b = question || b = hash

/-- The part of `//authority…` after the authority. -/
def afterAuthority : Bytes → Bytes
  | b :: c :: rest =>
      if b = slash ∧ c = slash then rest.dropWhile (!endsAuthority ·) else b :: c :: rest
  | bs => bs

/-- The part of an absolute URL after its scheme. -/
def afterScheme (url : Bytes) : Bytes := (url.dropWhile (· ≠ colon)).tail

/-- The URL without its fragment. -/
def beforeFragment (bs : Bytes) : Bytes := bs.takeWhile (· ≠ hash)

/-- The path of an absolute URL: `/` where the URL has none. -/
def path (url : Bytes) : Bytes :=
  match (beforeFragment (afterAuthority (afterScheme url))).takeWhile (· ≠ question) with
  | [] => [slash]
  | p => p

/-- The query of an absolute URL, empty where the URL has none. -/
def query (url : Bytes) : Bytes :=
  ((beforeFragment (afterAuthority (afterScheme url))).dropWhile (· ≠ question)).tail

end OpenHost.Url
