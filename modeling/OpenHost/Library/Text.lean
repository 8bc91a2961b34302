import Mathlib.Data.List.Infix

/-!
# Text as the modelled programs handle it

Python treats the empty string and `None` alike in `a or b`; it strips and splits text by
characters.  This module has those operations on `String`, with the lemmas about prefixes that the
object-store keys need.
-/

namespace OpenHost.Text

/-! ## Truthiness -/

/-- `s` where Python takes it for true: an optional text that is neither `None` nor empty. -/
def truthy? (s : Option String) : Option String :=
  match s with
  | some t => if t = "" then none else some t
  | none => none

/-- `a or b` for an optional text `a`. -/
def orElse (a : Option String) (b : String) : String := (truthy? a).getD b

@[simp] theorem truthy?_none : truthy? none = none := rfl

theorem truthy?_some_of_ne {t : String} (h : t ≠ "") : truthy? (some t) = some t := by
  simp [truthy?, h]

theorem orElse_some_of_ne {t b : String} (h : t ≠ "") : orElse (some t) b = t := by
  simp [orElse, truthy?_some_of_ne h]

/-- `a or b` is not empty when `b` is not. -/
theorem orElse_ne_empty (a : Option String) {b : String} (hb : b ≠ "") : orElse a b ≠ "" := by
  cases a with
  | none => exact hb
  | some t =>
    by_cases ht : t = ""
    · simpa [orElse, truthy?, ht] using hb
    · simp [orElse, truthy?, ht]

/-! ## Prefixes -/

/-- The rest of `k` after the prefix `p`, when `k` starts with it. -/
def stripPrefix? (p k : String) : Option String :=
  if p.toList.isPrefixOf k.toList then
    some (String.ofList (k.toList.drop p.toList.length))
  else none

theorem append_toList_inj {p r r' : String} (h : p ++ r = p ++ r') : r = r' := by
  have hl := congrArg String.toList h
  simp only [String.toList_append, List.append_cancel_left_eq] at hl
  exact String.toList_inj.mp hl

theorem stripPrefix?_eq_some_iff {p k r : String} :
    stripPrefix? p k = some r ↔ k = p ++ r := by
  unfold stripPrefix?
  split
  · rename_i h
    rw [List.isPrefixOf_iff_prefix] at h
    obtain ⟨t, ht⟩ := h
    have hk : k = p ++ String.ofList t := by
      rw [← String.toList_inj, ← ht]
      simp
    constructor
    · intro heq
      have hr : String.ofList t = r := by simpa [← ht] using heq
      rw [hk, hr]
    · intro heq
      have hr : String.ofList t = r := append_toList_inj (hk.symm.trans heq)
      simp [← ht, hr]
  · rename_i h
    simp only [reduceCtorEq, false_iff]
    intro hk
    apply h
    rw [hk]
    simp

theorem stripPrefix?_append (p r : String) : stripPrefix? p (p ++ r) = some r :=
  stripPrefix?_eq_some_iff.mpr rfl

theorem stripPrefix?_eq_none_iff {p k : String} :
    stripPrefix? p k = none ↔ ∀ r, k ≠ p ++ r := by
  constructor
  · intro h r hk
    rw [stripPrefix?_eq_some_iff.mpr hk] at h
    cases h
  · intro h
    cases hk : stripPrefix? p k with
    | none => rfl
    | some r => exact absurd (stripPrefix?_eq_some_iff.mp hk) (h r)

/-- `s.startswith(p)`. -/
def startsWith (s p : String) : Bool := p.toList.isPrefixOf s.toList

theorem startsWith_iff {s p : String} : startsWith s p = true ↔ ∃ r, s = p ++ r := by
  constructor
  · intro h
    cases hs : stripPrefix? p s with
    | none => simp [stripPrefix?, startsWith] at hs h; exact absurd h hs
    | some r => exact ⟨r, stripPrefix?_eq_some_iff.mp hs⟩
  · rintro ⟨r, rfl⟩
    simp [startsWith]

theorem stripPrefix?_of_not_startsWith {s p : String} (h : startsWith s p = false) :
    stripPrefix? p s = none := by
  rw [stripPrefix?_eq_none_iff]
  intro r hs
  rw [startsWith_iff.mpr ⟨r, hs⟩] at h
  cases h

/-! ## Stripping and splitting -/

/-- `s.rstrip(c)` for one character. -/
def rstrip (c : Char) (s : String) : String :=
  String.ofList ((s.toList.reverse.dropWhile (· = c)).reverse)

/-- `s.lstrip(c)` for one character. -/
def lstrip (c : Char) (s : String) : String := String.ofList (s.toList.dropWhile (· = c))

/-- `s.strip(c)` for one character. -/
def strip (c : Char) (s : String) : String :=
  String.ofList (((s.toList.dropWhile (· = c)).reverse.dropWhile (· = c)).reverse)

/-- White space as `str.strip` sees it. -/
def isBlank (c : Char) : Bool :=
  ('\t' ≤ c && c ≤ '\r') || ('\x1c' ≤ c && c ≤ ' ') || c = '\u0085' || c = '\u00a0' ||
    c = '\u1680' || ('\u2000' ≤ c && c ≤ '\u200a') || c = '\u2028' || c = '\u2029' ||
    c = '\u202f' || c = '\u205f' || c = '\u3000'

/-- `s.lstrip()` on the characters of a text. -/
def lstripChars (l : List Char) : List Char := l.dropWhile isBlank

/-- `s.rstrip()` on the characters of a text. -/
def rstripChars (l : List Char) : List Char := (l.reverse.dropWhile isBlank).reverse

/-- `s.strip()` -/
def stripBlank (s : String) : String := String.ofList (rstripChars (lstripChars s.toList))

/-- `s.split(c, 1)[0]`: the characters before the first `c`, all of them where there is none. -/
def before (c : Char) (s : String) : String := String.ofList (s.toList.takeWhile (· ≠ c))

/-- `s.partition(c)[2]`: the characters after the first `c`, none of them where there is none. -/
def after (c : Char) (s : String) : String := String.ofList (s.toList.dropWhile (· ≠ c)).tail

@[simp] theorem toList_before (c : Char) (s : String) :
    (before c s).toList = s.toList.takeWhile (· ≠ c) := by simp [before]

@[simp] theorem toList_after (c : Char) (s : String) :
    (after c s).toList = (s.toList.dropWhile (· ≠ c)).tail := by simp [after]

theorem not_mem_before (c : Char) (s : String) : c ∉ (before c s).toList := by
  intro hc
  rw [toList_before] at hc
  have h := List.all_eq_true.mp List.all_takeWhile c hc
  simp at h

/-- `s.endswith(t)`. -/
def endsWith (s t : String) : Bool := t.toList.isSuffixOf s.toList

theorem endsWith_iff {s t : String} : endsWith s t = true ↔ ∃ r, s = r ++ t := by
  rw [endsWith, List.isSuffixOf_iff_suffix]
  constructor
  · rintro ⟨r, hr⟩
    exact ⟨String.ofList r, by rw [← String.toList_inj, ← hr]; simp⟩
  · rintro ⟨r, rfl⟩
    exact ⟨r.toList, by simp⟩

/-- The rest of `s` before the suffix `t`, when `s` ends with it. -/
def stripSuffix? (t s : String) : Option String :=
  if endsWith s t then some (String.ofList (s.toList.take (s.toList.length - t.toList.length)))
  else none

theorem stripSuffix?_eq_some_iff {t s r : String} : stripSuffix? t s = some r ↔ s = r ++ t := by
  have htake : ∀ r : String, String.ofList ((r ++ t).toList.take
      ((r ++ t).toList.length - t.toList.length)) = r := by
    intro r
    rw [String.toList_append, List.length_append, Nat.add_sub_cancel, List.take_left,
      String.ofList_toList]
  unfold stripSuffix?
  split
  · rename_i h
    obtain ⟨r', rfl⟩ := endsWith_iff.mp h
    rw [htake, Option.some.injEq]
    constructor
    · rintro rfl
      rfl
    · intro h
      rw [← htake r', h, htake]
  · rename_i h
    simp only [reduceCtorEq, false_iff]
    intro hs
    exact h (endsWith_iff.mpr ⟨r, hs⟩)

/-! ## What stripping leaves -/

theorem toList_strip (c : Char) (s : String) :
    (strip c s).toList = ((s.toList.dropWhile (· = c)).reverse.dropWhile (· = c)).reverse := by
  simp [strip]

theorem strip_initial (c : Char) (s : String) :
    (strip c s).toList <+: s.toList.dropWhile (· = c) := by
  rw [toList_strip, ← List.reverse_suffix, List.reverse_reverse]
  exact List.dropWhile_suffix _

/-- Stripping only takes characters away at the two ends. -/
theorem strip_inside (c : Char) (s : String) : (strip c s).toList <:+: s.toList :=
  (strip_initial c s).isInfix.trans (List.dropWhile_suffix _).isInfix

/-- Nothing is stripped off a text with other characters at its ends. -/
theorem strip_of_ends {c : Char} {s : String} (hhead : s.toList.head? ≠ some c)
    (hlast : s.toList.getLast? ≠ some c) : strip c s = s := by
  have hdrop : ∀ l : List Char, l.head? ≠ some c → l.dropWhile (· = c) = l := by
    intro l hl
    cases l with
    | nil => rfl
    | cons d l =>
      have hd : d ≠ c := fun h => hl (congrArg some h)
      simp [hd]
  rw [← String.toList_inj, toList_strip, hdrop _ hhead, hdrop, List.reverse_reverse]
  rwa [List.head?_reverse]

/-- The characters after the first occurrence of `://`, if there is one. -/
def afterScheme? : List Char → Option (List Char)
  | ':' :: '/' :: '/' :: rest => some rest
  | _ :: rest => afterScheme? rest
  | [] => none

/-- `s.split("://", 1)[-1]`. -/
def afterScheme (s : String) : String :=
  match afterScheme? s.toList with
  | some rest => String.ofList rest
  | none => s

example : rstrip '/' "https://minio.local/" = "https://minio.local" := by decide

example : afterScheme "https://minio.local" = "minio.local" := by decide

end OpenHost.Text
