import Mathlib.Data.List.TakeWhile
import OpenHost.Library.Json

/-!
# Dictionaries that are written and read back

`json.dumps` of a dictionary without containers in it, as one line of a log holds it.  Only ASCII is
written: every other character is escaped, outside the basic plane as a pair of surrogates.
-/

namespace OpenHost.Json

/-! ## The writer -/

/-- A value that is not a container. -/
inductive Scalar where
  | null
  | bool (b : Bool)
  | int (n : Int)
  | str (s : PyStr)
  deriving DecidableEq

/-- A text, or `None`. -/
def strOrNone : Option PyStr → Scalar
  | none => .null
  | some s => .str s

/-- Four hexadecimal digits. -/
def escapeUnit (n : Nat) : List Char :=
  ['\\', 'u', Nat.digitChar (n / 0x1000 % 16), Nat.digitChar (n / 0x100 % 16),
    Nat.digitChar (n / 0x10 % 16), Nat.digitChar (n % 16)]

/-- A character in a string. -/
def escapeCode (c : CodePoint) : List Char :=
  if c.val = 0x22 then ['\\', '"']
  else if c.val = 0x5C then ['\\', '\\']
  else if c.val = 0x0A then ['\\', 'n']
  else if c.val = 0x0D then ['\\', 'r']
  else if c.val = 0x09 then ['\\', 't']
  else if c.val = 0x0C then ['\\', 'f']
  else if c.val = 0x08 then ['\\', 'b']
  else if 0x20 ≤ c.val ∧ c.val ≤ 0x7E then [Char.ofNat c.val]
  else if c.val < 0x10000 then escapeUnit c.val
  else
    escapeUnit (0xD800 + (c.val - 0x10000) / 0x400) ++
      escapeUnit (0xDC00 + (c.val - 0x10000) % 0x400)

/-- A string between quotes. -/
def quote (s : PyStr) : List Char := '"' :: s.flatMap escapeCode ++ ['"']

/-- `int.__repr__` -/
def dumpInt (n : Int) : List Char :=
  if n < 0 then '-' :: Nat.toDigits 10 n.natAbs else Nat.toDigits 10 n.natAbs

/-- `json.dumps` of a value that is not a container. -/
def dumpScalar : Scalar → List Char
  | .null => "null".toList
  | .bool true => "true".toList
  | .bool false => "false".toList
  | .int n => dumpInt n
  | .str s => quote s

/-- An integer with more digits is refused. -/
def Scalar.writable (lim : Limits) : Scalar → Bool
  | .int n => (Nat.toDigits 10 n.natAbs).length ≤ lim.digits
  | _ => true

/-- A separator; `json.dumps` puts a space behind it unless it is told not to. -/
def separator (spaced : Bool) (c : Char) : List Char := if spaced then [c, ' '] else [c]

/-- A key with its value. -/
def dumpMember (spaced : Bool) (m : PyStr × Scalar) : List Char :=
  quote m.1 ++ separator spaced ':' ++ dumpScalar m.2

/-- What stands between the braces. -/
def dumpMembers (spaced : Bool) : List (PyStr × Scalar) → List Char
  | [] => []
  | [m] => dumpMember spaced m
  | m :: ms => dumpMember spaced m ++ separator spaced ',' ++ dumpMembers spaced ms

/-- The text of a dictionary. -/
def dictText (spaced : Bool) (ms : List (PyStr × Scalar)) : List Char :=
  '{' :: dumpMembers spaced ms ++ ['}']

/-- `json.dumps(d)` -/
def dumps (lim : Limits) (spaced : Bool) (ms : List (PyStr × Scalar)) : Except Error (List Char) :=
  if ms.all fun m => m.2.writable lim then .ok (dictText spaced ms) else .error .digits

/-! ## What is read back -/

/-- Surrogates that make a pair are read as the character for which they stand. -/
def join (s : PyStr) : PyStr := (s.foldl push []).reverse

/-- A value as it is read back. -/
def Scalar.value : Scalar → Value
  | .null => .null
  | .bool b => .bool b
  | .int n => .int n
  | .str s => .str (join s)

/-- What is read back for a text or `None`. -/
def joinOrNone : Option PyStr → Value
  | none => .null
  | some s => .str (join s)

theorem value_strOrNone (s : Option PyStr) : (strOrNone s).value = joinOrNone s := by
  cases s <;> rfl

/-- A dictionary as it is read back, over what was read before. -/
def readMembers (d : List (PyStr × Value)) (ms : List (PyStr × Scalar)) : List (PyStr × Value) :=
  ms.foldl (fun d m => setItem d (join m.1) m.2.value) d

/-- A text in which no two surrogates make a pair. -/
def Joined (s : PyStr) : Prop := join s = s

instance (s : PyStr) : Decidable (Joined s) := inferInstanceAs (Decidable (join s = s))

theorem push_of_not_low {c : CodePoint} (h : isLow c = false) (read : PyStr) :
    push read c = c :: read := by
  cases read with
  | nil => rfl
  | cons last rest => simp [push, h]

theorem foldl_push {s : PyStr} (h : ∀ c ∈ s, isLow c = false) (read : PyStr) :
    s.foldl push read = s.reverse ++ read := by
  induction s generalizing read with
  | nil => rfl
  | cons c s ih =>
    rw [List.foldl_cons, push_of_not_low (h c List.mem_cons_self),
      ih fun d hd => h d (List.mem_cons_of_mem c hd)]
    simp

theorem isLow_ord (c : Char) : isLow (ord c) = false := by
  have hval : (ord c).val = c.toNat := rfl
  have hvalid : c.toNat < 0xD800 ∨ 0xDFFF < c.toNat := c.valid.imp_right fun h => h.1
  simp only [isLow, hval, Bool.and_eq_false_iff, decide_eq_false_iff_not]
  omega

/-- A text without surrogates is read back as it is. -/
theorem joined_ofString (s : String) : Joined (ofString s) := by
  have hlow : ∀ c ∈ ofString s, isLow c = false := by
    intro c hc
    obtain ⟨d, -, rfl⟩ := List.mem_map.mp hc
    exact isLow_ord d
  rw [Joined, join, foldl_push hlow, List.append_nil, List.reverse_reverse]

/-- A dictionary whose keys are distinct is read back member by member. -/
theorem readMembers_eq {ms : List (PyStr × Scalar)} {d : List (PyStr × Value)}
    (h : (d.map Prod.fst ++ ms.map fun m => join m.1).Nodup) :
    readMembers d ms = d ++ ms.map fun m => (join m.1, m.2.value) := by
  induction ms generalizing d with
  | nil => simp [readMembers]
  | cons m ms ih =>
    have hfresh : join m.1 ∉ d.map Prod.fst := by
      intro hmem
      exact (List.nodup_append.mp h).2.2 _ hmem _ List.mem_cons_self rfl
    have hset : setItem d (join m.1) m.2.value = d ++ [(join m.1, m.2.value)] := if_neg hfresh
    have hrest := ih (d := d ++ [(join m.1, m.2.value)])
      (by rw [List.map_append, List.append_assoc]; exact h)
    rw [readMembers, List.foldl_cons, hset]
    rw [readMembers] at hrest
    rw [hrest, List.append_assoc]
    rfl

/-! ## Texts that end too early -/

variable {lim : Limits}

@[simp] theorem run_nil (x : Config) : run lim x [] = .ok x := rfl

theorem run_cons (x : Config) (c : Char) (cs : List Char) :
    run lim x (c :: cs) = step lim x c >>= fun y => run lim y cs := rfl

theorem run_cons_of_ok {x y : Config} {c : Char} (h : step lim x c = .ok y) (cs : List Char) :
    run lim x (c :: cs) = run lim y cs := by
  rw [run_cons, h]
  rfl

theorem run_append (x : Config) (as bs : List Char) :
    run lim x (as ++ bs) = run lim x as >>= fun y => run lim y bs := List.foldlM_append

theorem run_append_of_ok {x y : Config} {as : List Char} (h : run lim x as = .ok y)
    (bs : List Char) : run lim x (as ++ bs) = run lim y bs := by
  rw [run_append, h]
  rfl

/-- A text that ends here is malformed. -/
def Early (lim : Limits) (x : Config) : Prop := finish lim x = .error .decode

/-- The reader gets from `a` to `b`, and a text that ends on the way is malformed. -/
structure Inside (lim : Limits) (a : Config) (cs : List Char) (b : Config) : Prop where
  run : run lim a cs = .ok b
  cut : ∀ p, p <+: cs → ∃ x, Json.run lim a p = .ok x ∧ Early lim x

namespace Inside

variable {a b c : Config} {cs ds : List Char}

theorem early (h : Inside lim a cs b) : Early lim b := by
  obtain ⟨x, hx, hearly⟩ := h.cut cs List.prefix_rfl
  rw [h.run] at hx
  rwa [Except.ok.inj hx]

theorem nil (h : Early lim a) : Inside lim a [] a where
  run := rfl
  cut p hp := by
    obtain rfl := List.prefix_nil.mp hp
    exact ⟨a, rfl, h⟩

/-- One more character at the front. -/
theorem cons {ch : Char} (ha : Early lim a) (hstep : step lim a ch = .ok b)
    (h : Inside lim b cs c) : Inside lim a (ch :: cs) c where
  run := by rw [run_cons_of_ok hstep, h.run]
  cut p hp := by
    rcases List.prefix_cons_iff.mp hp with rfl | ⟨q, rfl, hq⟩
    · exact ⟨a, rfl, ha⟩
    · obtain ⟨x, hx, hearly⟩ := h.cut q hq
      exact ⟨x, by rw [run_cons_of_ok hstep, hx], hearly⟩

theorem append (h : Inside lim a cs b) (h' : Inside lim b ds c) : Inside lim a (cs ++ ds) c where
  run := by rw [run_append_of_ok h.run, h'.run]
  cut p hp := by
    rcases List.prefix_or_prefix_of_prefix hp (List.prefix_append cs ds) with hp | ⟨q, rfl⟩
    · exact h.cut p hp
    · obtain ⟨x, hx, hearly⟩ := h'.cut q ((List.prefix_append_right_inj cs).mp hp)
      exact ⟨x, by rw [run_append_of_ok h.run, hx], hearly⟩

theorem char {ch : Char} (ha : Early lim a) (hstep : step lim a ch = .ok b) (hb : Early lim b) :
    Inside lim a [ch] b := cons ha hstep (nil hb)

end Inside

/-! ## Strings -/

theorem early_string (stack : List Frame) (isKey : Bool) (part : StringPart) (read : PyStr) :
    Early lim ⟨stack, .string isKey part read⟩ := rfl

theorem hexDigit?_digitChar {d : Nat} (h : d < 16) : hexDigit? (Nat.digitChar d) = some d := by
  have key : ∀ d : Fin 16, hexDigit? (Nat.digitChar d.val) = some d.val := by decide
  exact key ⟨d, h⟩

/-- Four digits are read as the number they stand for. -/
theorem inside_escapeUnit {n : Nat} (h : n < 0x10000) (stack : List Frame) (isKey : Bool)
    (read : PyStr) :
    Inside lim ⟨stack, .string isKey .plain read⟩ (escapeUnit n)
      ⟨stack, .string isKey .plain (push read (Fin.ofNat _ n))⟩ := by
  have hdigit : ∀ m, hexDigit? (Nat.digitChar (m % 16)) = some (m % 16) :=
    fun m => hexDigit?_digitChar (Nat.mod_lt m (by decide))
  have hvalue : 16 * (16 * (16 * (16 * 0 + n / 0x1000 % 16) + n / 0x100 % 16) + n / 0x10 % 16) +
      n % 16 = n := by omega
  refine .cons (early_string ..) rfl (.cons (early_string ..) rfl ?_)
  refine .cons (b := ⟨stack, .string isKey (.hex 1 (16 * 0 + n / 0x1000 % 16)) read⟩)
    (early_string ..) ?_ (.cons (b := ⟨stack, .string isKey (.hex 2
      (16 * (16 * 0 + n / 0x1000 % 16) + n / 0x100 % 16)) read⟩) (early_string ..) ?_
      (.cons (b := ⟨stack, .string isKey (.hex 3
        (16 * (16 * (16 * 0 + n / 0x1000 % 16) + n / 0x100 % 16) + n / 0x10 % 16)) read⟩)
        (early_string ..) ?_ (.char (early_string ..) ?_ (early_string ..))))
  · simp only [step, inString, hdigit]
    rfl
  · simp only [step, inString, hdigit]
    rfl
  · simp only [step, inString, hdigit]
    rfl
  · simp only [step, inString, hdigit]
    rw [if_pos trivial, hvalue]

/-- A pair of surrogates is read as one character. -/
theorem push_pair {c : CodePoint} (h : 0x10000 ≤ c.val) (read : PyStr) :
    push (push read (Fin.ofNat _ (0xD800 + (c.val - 0x10000) / 0x400)))
      (Fin.ofNat _ (0xDC00 + (c.val - 0x10000) % 0x400)) = push read c := by
  have hc := c.isLt
  have hdiv : (c.val - 0x10000) / 0x400 < 0x400 := by omega
  have hmod : (c.val - 0x10000) % 0x400 < 0x400 := Nat.mod_lt _ (by decide)
  have hhigh : (Fin.ofNat 0x110000 (0xD800 + (c.val - 0x10000) / 0x400)).val =
      0xD800 + (c.val - 0x10000) / 0x400 := Nat.mod_eq_of_lt (by omega)
  have hlow : (Fin.ofNat 0x110000 (0xDC00 + (c.val - 0x10000) % 0x400)).val =
      0xDC00 + (c.val - 0x10000) % 0x400 := Nat.mod_eq_of_lt (by omega)
  generalize Fin.ofNat 0x110000 (0xD800 + (c.val - 0x10000) / 0x400) = high at hhigh ⊢
  generalize Fin.ofNat 0x110000 (0xDC00 + (c.val - 0x10000) % 0x400) = low at hlow ⊢
  -- neither the first half nor the character itself completes a pair
  have hhighLow : isLow high = false := by
    simp only [isLow, hhigh, Bool.and_eq_false_iff, decide_eq_false_iff_not]
    omega
  have hcLow : isLow c = false := by
    simp only [isLow, Bool.and_eq_false_iff, decide_eq_false_iff_not]
    omega
  have hjoins : (isHigh high && isLow low) = true := by
    simp only [isHigh, isLow, hhigh, hlow, Bool.and_eq_true, decide_eq_true_eq]
    omega
  have hpair : pair high low = c := by
    apply Fin.ext
    show (0x10000 + (high.val - 0xD800) * 0x400 + (low.val - 0xDC00)) % 0x110000 = c.val
    omega
  rw [push_of_not_low hhighLow, push_of_not_low hcLow, push, if_pos hjoins, hpair]

theorem toNat_ofNat {n : Nat} (h : n < 0xD800) : (Char.ofNat n).toNat = n := by
  rw [Char.ofNat, dif_pos (Or.inl h)]
  rfl

theorem ord_ofNat {c : CodePoint} (h : c.val < 0xD800) : ord (Char.ofNat c.val) = c :=
  Fin.ext (toNat_ofNat h)

/-- An escape of two characters. -/
theorem inside_short {e : Char} {c : CodePoint} (he : e ≠ 'u') (h : unescape? e = some c)
    (stack : List Frame) (isKey : Bool) (read : PyStr) :
    Inside lim ⟨stack, .string isKey .plain read⟩ ['\\', e]
      ⟨stack, .string isKey .plain (push read c)⟩ := by
  refine .cons (early_string ..) rfl (.char (early_string ..) ?_ (early_string ..))
  simp only [step, inString, if_neg he, h]

/-- What is written for a character is read as that character. -/
theorem inside_escapeCode (c : CodePoint) (stack : List Frame) (isKey : Bool) (read : PyStr) :
    Inside lim ⟨stack, .string isKey .plain read⟩ (escapeCode c)
      ⟨stack, .string isKey .plain (push read c)⟩ := by
  have hof : ∀ n : CodePoint, c.val = n.val → n = c := fun n h => Fin.ext h.symm
  unfold escapeCode
  split_ifs with hquote hback hnewline hreturn htab hfeed hbs hprint hunit
  · exact inside_short (by decide) (by rw [← hof 0x22 hquote]; rfl) ..
  · exact inside_short (by decide) (by rw [← hof 0x5C hback]; rfl) ..
  · exact inside_short (by decide) (by rw [← hof 0x0A hnewline]; rfl) ..
  · exact inside_short (by decide) (by rw [← hof 0x0D hreturn]; rfl) ..
  · exact inside_short (by decide) (by rw [← hof 0x09 htab]; rfl) ..
  · exact inside_short (by decide) (by rw [← hof 0x0C hfeed]; rfl) ..
  · exact inside_short (by decide) (by rw [← hof 0x08 hbs]; rfl) ..
  · -- a character that stands for itself
    have hnat : (Char.ofNat c.val).toNat = c.val := toNat_ofNat (by omega)
    have hne : ∀ d : Char, c.val ≠ d.toNat → Char.ofNat c.val ≠ d := by
      rintro d hd rfl
      exact hd hnat.symm
    have hspace : ¬ Char.ofNat c.val < ' ' := by
      rw [Char.lt_def, UInt32.lt_iff_toNat_lt]
      show ¬ (Char.ofNat c.val).toNat < 0x20
      omega
    refine .char (early_string ..) ?_ (early_string ..)
    simp only [step, inString, if_neg (hne '"' hquote), if_neg (hne '\\' hback), if_neg hspace,
      ord_ofNat (show c.val < 0xD800 by omega)]
  · have hval : Fin.ofNat 0x110000 c.val = c := Fin.ext (Nat.mod_eq_of_lt c.isLt)
    have h : Inside lim _ _ _ := inside_escapeUnit hunit stack isKey read
    rwa [hval] at h
  · have hc := c.isLt
    have h₁ : Inside lim _ _ _ := inside_escapeUnit
      (n := 0xD800 + (c.val - 0x10000) / 0x400) (by omega) stack isKey read
    have h₂ : Inside lim _ _ _ := inside_escapeUnit
      (n := 0xDC00 + (c.val - 0x10000) % 0x400) (by omega) stack isKey
      (push read (Fin.ofNat _ (0xD800 + (c.val - 0x10000) / 0x400)))
    rw [push_pair (by omega)] at h₂
    exact h₁.append h₂

/-- What is written for the characters of a string is read as its characters. -/
theorem inside_escaped (s : PyStr) (stack : List Frame) (isKey : Bool) (read : PyStr) :
    Inside lim ⟨stack, .string isKey .plain read⟩ (s.flatMap escapeCode)
      ⟨stack, .string isKey .plain (s.foldl push read)⟩ := by
  induction s generalizing read with
  | nil => exact .nil (early_string ..)
  | cons c s ih => exact (inside_escapeCode c stack isKey read).append (ih (push read c))

theorem escapeCode_of_surrogate {c : CodePoint} (h : 0xD800 ≤ c.val) (h' : c.val ≤ 0xDFFF) :
    escapeCode c = escapeUnit c.val := by
  unfold escapeCode
  repeat rw [if_neg (by omega)]
  rw [if_pos (by omega)]

/-- A pair of surrogates is written as the character for which they stand. -/
theorem escapeCode_pair {high low : CodePoint} (hhigh : isHigh high = true) (hlow : isLow low = true) :
    escapeCode (pair high low) = escapeCode high ++ escapeCode low := by
  simp only [isHigh, isLow, Bool.and_eq_true, decide_eq_true_eq] at hhigh hlow
  have hval : (pair high low).val = 0x10000 + (high.val - 0xD800) * 0x400 + (low.val - 0xDC00) :=
    Nat.mod_eq_of_lt (by omega)
  have hfirst : 0xD800 + ((pair high low).val - 0x10000) / 0x400 = high.val := by omega
  have hsecond : 0xDC00 + ((pair high low).val - 0x10000) % 0x400 = low.val := by omega
  rw [escapeCode_of_surrogate hhigh.1 (by omega), escapeCode_of_surrogate (by omega) hlow.2]
  generalize pair high low = c at hval hfirst hsecond
  unfold escapeCode
  repeat rw [if_neg (by omega)]
  rw [hfirst, hsecond]

theorem escapes_push (read : PyStr) (c : CodePoint) :
    (push read c).reverse.flatMap escapeCode = read.reverse.flatMap escapeCode ++ escapeCode c := by
  unfold push
  cases read with
  | nil => simp
  | cons last rest =>
    dsimp only
    split
    · next hpair =>
      simp [escapeCode_pair (Bool.and_eq_true_iff.mp hpair).1 (Bool.and_eq_true_iff.mp hpair).2]
    · simp

/-- A text is written like the one it is read back as. -/
theorem quote_join (s : PyStr) : quote (join s) = quote s := by
  have hfold : ∀ read : PyStr, (s.foldl push read).reverse.flatMap escapeCode =
      read.reverse.flatMap escapeCode ++ s.flatMap escapeCode := by
    induction s with
    | nil => simp
    | cons c s ih =>
      intro read
      rw [List.foldl_cons, ih, escapes_push, List.flatMap_cons, List.append_assoc]
  rw [quote, join, hfold, quote]
  rfl

/-! ## Numbers -/

theorem toDigits_cons {n : Nat} (h : 0 < n) :
    ∃ d ds, Nat.toDigits 10 n = d :: ds ∧ d ≠ '0' := by
  induction n using Nat.strong_induction_on with
  | _ n ih =>
    by_cases hn : n < 10
    · refine ⟨n.digitChar, [], Nat.toDigits_of_lt_base hn, ?_⟩
      have key : ∀ n : Fin 10, 0 < n.val → n.val.digitChar ≠ '0' := by decide
      exact key ⟨n, hn⟩ h
    · obtain ⟨d, ds, hds, hd⟩ := ih (n / 10) (by omega) (by omega)
      refine ⟨d, ds ++ [(n % 10).digitChar], ?_, hd⟩
      rw [Nat.toDigits_of_base_le (by decide) (by omega), hds]
      rfl

/-- The sign with which a number begins. -/
def sign (negative : Bool) : List Char := if negative then ['-'] else []

/-- A number that consists of a sign and digits. -/
theorem intValue_digits {ds : List Char} (hds : ∀ c ∈ ds, c.isDigit = true)
    (hlen : ds.length ≤ lim.digits) (negative : Bool) :
    intValue lim (sign negative ++ ds) =
      .ok (if negative then -(Nat.ofDigitChars 10 ds 0 : Int) else Nat.ofDigitChars 10 ds 0) := by
  have hminus : ds.head? ≠ some '-' := by
    intro h
    have := hds '-' (List.mem_of_mem_head? h)
    cases this
  have hdrop : (sign negative ++ ds).dropWhile (· = '-') = ds := by
    have hself : ds.dropWhile (· = '-') = ds := by
      cases ds with
      | nil => rfl
      | cons d ds => exact List.dropWhile_cons_of_neg (by simpa using hminus)
    cases negative
    · exact hself
    · simp [sign, hself]
  have htake : ds.takeWhile Char.isDigit = ds := List.takeWhile_eq_self_iff.mpr hds
  have hhead : (sign negative ++ ds).head? = some '-' ↔ negative = true := by
    cases negative
    · simpa [sign] using hminus
    · simp [sign]
  simp only [intValue, hdrop, htake, if_neg (Nat.not_lt.mpr hlen), hhead]

section Members

variable {d : List (PyStr × Value)} {key : PyStr} {stack : List Frame}

/-- In a dictionary a number can go on as long as its digits are not too many. -/
theorem early_number {part : NumberPart} (hpart : part = .zero ∨ part = .digits) {ds : List Char}
    (hds : ∀ c ∈ ds, c.isDigit = true) (hlen : ds.length ≤ lim.digits) (negative : Bool) :
    Early lim ⟨.member d key :: stack, .number part (sign negative ++ ds)⟩ := by
  have hint := intValue_digits hds hlen negative
  rcases hpart with rfl | rfl <;>
  · simp only [Early, finish, numberValue, hint]
    rfl

/-- The first digit of a number that does not begin with zero. -/
theorem step_first_digit {c : Char} (hc : c.isDigit = true) (hzero : c ≠ '0') :
    step lim ⟨stack, .value⟩ c = .ok ⟨stack, .number .digits [c]⟩ := by
  have hne : ∀ e : Char, e.isDigit = false → c ≠ e := by
    rintro e he rfl
    rw [hc] at he
    cases he
  have hspace : isSpace c = false := by
    simp [isSpace, hne ' ' rfl, hne '\t' rfl, hne '\n' rfl, hne '\r' rfl]
  simp only [step, hspace, beginValue, if_neg (hne '"' rfl), if_neg (hne '{' rfl),
    if_neg (hne '[' rfl), if_neg (hne '-' rfl), if_neg hzero, if_pos hc]
  rfl

/-- Digits of a number. -/
theorem inside_digits {ds : List Char} (hds : ∀ c ∈ ds, c.isDigit = true) {pre : List Char}
    (hpre : ∀ c ∈ pre, c.isDigit = true) (hlen : (pre ++ ds).length ≤ lim.digits)
    (negative : Bool) :
    Inside lim ⟨.member d key :: stack, .number .digits (sign negative ++ pre)⟩ ds
      ⟨.member d key :: stack, .number .digits (sign negative ++ (pre ++ ds))⟩ := by
  induction ds generalizing pre with
  | nil =>
    rw [List.append_nil] at hlen ⊢
    exact .nil (early_number (Or.inr rfl) hpre hlen negative)
  | cons c ds ih =>
    have hc : c.isDigit = true := hds c List.mem_cons_self
    have hpre' : ∀ x ∈ pre ++ [c], x.isDigit = true := by
      intro x hx
      rcases List.mem_append.mp hx with hx | hx
      · exact hpre x hx
      · rwa [List.mem_singleton.mp hx]
    have hrest := ih (fun x hx => hds x (List.mem_cons_of_mem c hx)) hpre'
      (by rwa [List.append_assoc, List.singleton_append])
    rw [List.append_assoc, List.singleton_append, ← List.append_assoc] at hrest
    refine .cons (early_number (Or.inr rfl) hpre ?_ negative) ?_ hrest
    · rw [List.length_append] at hlen
      omega
    · simp only [step, nextPart?, if_pos hc]

/-- What ends a value in a dictionary. -/
def Ends (c : Char) : Prop := c = ',' ∨ c = '}'

/-- The reader takes `cs` for the value `v`: what ends the value finds it in its place. -/
def Reads (lim : Limits) (stack : List Frame) (cs : List Char) (v : Value) : Prop :=
  ∃ x, Inside lim ⟨stack, .value⟩ cs x ∧
    ∀ c, Ends c → step lim x c = afterPlaced (place stack v) c

theorem reads_of_inside {cs : List Char} {v : Value}
    (h : Inside lim ⟨.member d key :: stack, .value⟩ cs (place (.member d key :: stack) v)) :
    Reads lim (.member d key :: stack) cs v := ⟨_, h, fun _ _ => rfl⟩

/-- A number that is over when the value ends. -/
theorem ends_number {part : NumberPart} (hpart : part = .zero ∨ part = .digits)
    {read : List Char} {n : Int} (h : intValue lim read = .ok n) {c : Char} (hc : Ends c) :
    step lim ⟨stack, .number part read⟩ c = afterPlaced (place stack (.int n)) c := by
  have hnext : nextPart? part c = none := by
    rcases hpart with rfl | rfl <;> rcases hc with rfl | rfl <;> rfl
  have hminus : ¬ (part = .minus ∧ c = 'I') := by
    rintro ⟨rfl, -⟩
    rcases hpart with h | h <;> cases h
  have hvalue : numberValue lim part read = .ok (.int n) := by
    rcases hpart with rfl | rfl <;>
    · simp only [numberValue, h]
      rfl
  simp only [step, hnext, if_neg hminus, hvalue]
  rfl

theorem isDigit_of_mem_toDigits {n : Nat} {c : Char} (h : c ∈ Nat.toDigits 10 n) :
    c.isDigit = true := Nat.isDigit_of_mem_toDigits (by decide) (by decide) h

theorem intValue_dumpInt {n : Int} (h : (Nat.toDigits 10 n.natAbs).length ≤ lim.digits) :
    intValue lim (dumpInt n) = .ok n := by
  have hof : Nat.ofDigitChars 10 (Nat.toDigits 10 n.natAbs) 0 = n.natAbs :=
    Nat.ofDigitChars_toDigits (by decide) (by decide)
  have hall := intValue_digits (fun c hc => isDigit_of_mem_toDigits hc) h (decide (n < 0))
  rw [hof] at hall
  by_cases hneg : n < 0
  · simp only [hneg, decide_true, sign, if_true] at hall
    rw [dumpInt, if_pos hneg]
    refine hall.trans (congrArg Except.ok ?_)
    omega
  · simp only [hneg, decide_false, sign, Bool.false_eq_true, if_false, List.nil_append] at hall
    rw [dumpInt, if_neg hneg]
    refine hall.trans (congrArg Except.ok ?_)
    omega

theorem reads_dumpInt {n : Int} (h : (Nat.toDigits 10 n.natAbs).length ≤ lim.digits) :
    Reads lim (.member d key :: stack) (dumpInt n) (.int n) := by
  have hdigits : ∀ c ∈ Nat.toDigits 10 n.natAbs, c.isDigit = true :=
    fun c hc => isDigit_of_mem_toDigits hc
  have hvalue := intValue_dumpInt h
  have hend : ∀ part, part = .zero ∨ part = .digits → ∀ c, Ends c →
      step lim ⟨.member d key :: stack, .number part (dumpInt n)⟩ c =
        afterPlaced (place (.member d key :: stack) (.int n)) c :=
    fun part hpart c hc => ends_number hpart hvalue hc
  by_cases hzero : n = 0
  · subst hzero
    refine ⟨_, .char rfl rfl ?_, hend .zero (Or.inl rfl)⟩
    exact early_number (Or.inl rfl) (by simp) (by simpa using h) false
  · obtain ⟨first, rest, hcons, hfirst⟩ := toDigits_cons (n := n.natAbs) (by omega)
    rw [hcons] at hdigits h
    have hdigit : first.isDigit = true := hdigits first List.mem_cons_self
    have hone : ∀ c ∈ [first], c.isDigit = true := by
      intro c hc
      rwa [List.mem_singleton.mp hc]
    have hlen : 1 ≤ lim.digits := le_trans (by simp) h
    have hinside := fun negative => @inside_digits lim d key stack rest
      (fun c hc => hdigits c (List.mem_cons_of_mem first hc)) [first] hone (by simpa using h) negative
    refine ⟨⟨.member d key :: stack, .number .digits (dumpInt n)⟩, ?_, hend .digits (Or.inr rfl)⟩
    by_cases hneg : n < 0
    · rw [dumpInt, if_pos hneg, hcons]
      refine .cons rfl rfl (.cons rfl ?_ (hinside true))
      simp only [step, nextPart?, if_neg hfirst, if_pos hdigit]
      rfl
    · rw [dumpInt, if_neg hneg, hcons]
      refine .cons rfl ?_ (hinside false)
      exact step_first_digit hdigit hfirst

/-! ## Dictionaries -/

/-- A quoted string, up to the closing quote. -/
theorem inside_quote {mode : Mode} {isKey : Bool} {t : PyStr} {x : Config}
    (hmode : Early lim ⟨stack, mode⟩)
    (hopen : step lim ⟨stack, mode⟩ '"' = .ok ⟨stack, .string isKey .plain []⟩)
    (hclose : step lim ⟨stack, .string isKey .plain (t.foldl push [])⟩ '"' = .ok x)
    (hx : Early lim x) : Inside lim ⟨stack, mode⟩ (quote t) x :=
  .cons hmode hopen ((inside_escaped t stack isKey []).append (.char (early_string ..) hclose hx))

theorem reads_dumpScalar {v : Scalar} (h : v.writable lim = true) :
    Reads lim (.member d key :: stack) (dumpScalar v) v.value := by
  cases v with
  | null => exact reads_of_inside (.cons rfl rfl (.cons rfl rfl (.cons rfl rfl (.char rfl rfl rfl))))
  | bool b =>
    cases b with
    | true =>
      exact reads_of_inside (.cons rfl rfl (.cons rfl rfl (.cons rfl rfl (.char rfl rfl rfl))))
    | false =>
      exact reads_of_inside
        (.cons rfl rfl (.cons rfl rfl (.cons rfl rfl (.cons rfl rfl (.char rfl rfl rfl)))))
  | int n => exact reads_dumpInt (of_decide_eq_true h)
  | str s => exact reads_of_inside (inside_quote rfl rfl rfl rfl)

/-- A separator, with the space behind it if there is one. -/
theorem inside_separator {spaced : Bool} {c : Char} {a b : Config} (ha : Early lim a)
    (hstep : step lim a c = .ok b) (hb : Early lim b) (hspace : step lim b ' ' = .ok b) :
    Inside lim a (separator spaced c) b := by
  cases spaced with
  | true => exact .cons ha hstep (.char hb hspace hb)
  | false => exact .char ha hstep hb

/-- The reader is at a place where a key may stand. -/
def KeyDue (mode : Mode) : Prop := mode = .firstKey ∨ mode = .key

/-- A key with its value, up to what ends it. -/
theorem inside_dumpMember {mode : Mode} (hmode : KeyDue mode) {spaced : Bool} {m : PyStr × Scalar}
    (h : m.2.writable lim = true) :
    ∃ x, Inside lim ⟨.dict d :: stack, mode⟩ (dumpMember spaced m) x ∧
      ∀ c, Ends c → step lim x c =
        afterValue (.dict (setItem d (join m.1) m.2.value) :: stack) .after c := by
  have hkey : Inside lim ⟨.dict d :: stack, mode⟩ (quote m.1)
      ⟨.member d (join m.1) :: stack, .colon⟩ := by
    rcases hmode with rfl | rfl <;> exact inside_quote rfl rfl rfl rfl
  have hcolon : Inside lim ⟨.member d (join m.1) :: stack, .colon⟩ (separator spaced ':')
      ⟨.member d (join m.1) :: stack, .value⟩ := inside_separator rfl rfl rfl rfl
  obtain ⟨x, hvalue, hend⟩ := reads_dumpScalar (d := d) h
  exact ⟨x, (hkey.append hcolon).append hvalue, hend⟩

/-- All that stands between the braces, up to the closing one. -/
theorem inside_dumpMembers {mode : Mode} (hmode : KeyDue mode) {spaced : Bool}
    {m : PyStr × Scalar} {ms : List (PyStr × Scalar)}
    (h : ∀ x ∈ m :: ms, x.2.writable lim = true) :
    ∃ x, Inside lim ⟨.dict d :: stack, mode⟩ (dumpMembers spaced (m :: ms)) x ∧
      step lim x '}' = .ok (place stack (.dict (readMembers d (m :: ms)))) := by
  induction ms generalizing m d mode with
  | nil =>
    obtain ⟨x, hx, hend⟩ := inside_dumpMember (d := d) hmode
      (h m List.mem_cons_self)
    exact ⟨x, hx, hend '}' (Or.inr rfl)⟩
  | cons m' ms ih =>
    obtain ⟨x, hx, hend⟩ := inside_dumpMember (d := d) hmode
      (h m List.mem_cons_self)
    have hcomma : Inside lim x (separator spaced ',')
        ⟨.dict (setItem d (join m.1) m.2.value) :: stack, .key⟩ :=
      inside_separator hx.early (hend ',' (Or.inl rfl)) rfl rfl
    obtain ⟨y, hy, hclose⟩ := ih (d := setItem d (join m.1) m.2.value) (Or.inr rfl)
      fun x hx => h x (List.mem_cons_of_mem m hx)
    exact ⟨y, (hx.append hcomma).append hy, hclose⟩

end Members

/-- A dictionary, from the opening brace to the closing one. -/
theorem inside_dict {stack : List Frame} (hdepth : stack.length < lim.depth) {mode : Mode}
    (hmode : mode = .value ∨ mode = .firstItem) {spaced : Bool} {m : PyStr × Scalar}
    {ms : List (PyStr × Scalar)} (h : ∀ x ∈ m :: ms, x.2.writable lim = true) :
    ∃ x, Inside lim ⟨stack, mode⟩ ('{' :: dumpMembers spaced (m :: ms)) x ∧
      step lim x '}' = .ok (place stack (.dict (readMembers [] (m :: ms)))) := by
  obtain ⟨x, hx, hclose⟩ := inside_dumpMembers (d := []) (Or.inl rfl)
    h
  have hopen : step lim ⟨stack, mode⟩ '{' = .ok ⟨.dict [] :: stack, .firstKey⟩ := by
    have hframe : openFrame lim stack (.dict []) .firstKey = .ok ⟨.dict [] :: stack, .firstKey⟩ :=
      if_pos hdepth
    rcases hmode with rfl | rfl <;> exact hframe
  have hearly : Early lim ⟨stack, mode⟩ := by
    rcases hmode with rfl | rfl <;> rfl
  exact ⟨x, .cons hearly hopen hx, hclose⟩

/-! ## What is written is printable -/

theorem printable_digitChar (n : Nat) : ' ' ≤ Nat.digitChar (n % 16) ∧ Nat.digitChar (n % 16) ≤ '~' := by
  have key : ∀ d : Fin 16, ' ' ≤ Nat.digitChar d.val ∧ Nat.digitChar d.val ≤ '~' := by decide
  exact key ⟨n % 16, Nat.mod_lt n (by decide)⟩

theorem printable_escapeUnit {n : Nat} {c : Char} (h : c ∈ escapeUnit n) : ' ' ≤ c ∧ c ≤ '~' := by
  simp only [escapeUnit, List.mem_cons, List.not_mem_nil, or_false] at h
  rcases h with rfl | rfl | rfl | rfl | rfl | rfl
  · decide
  · decide
  all_goals exact printable_digitChar _

theorem printable_escapeCode {code : CodePoint} {c : Char} (h : c ∈ escapeCode code) :
    ' ' ≤ c ∧ c ≤ '~' := by
  have hshort : ∀ e : Char, ' ' ≤ e ∧ e ≤ '~' → c ∈ ['\\', e] → ' ' ≤ c ∧ c ≤ '~' := by
    intro e he hc
    rcases List.mem_cons.mp hc with rfl | hc
    · decide
    · rwa [List.mem_singleton.mp hc]
  unfold escapeCode at h
  split_ifs at h with hquote hback hnewline hreturn htab hfeed hbs hprint hunit
  · exact hshort _ (by decide) h
  · exact hshort _ (by decide) h
  · exact hshort _ (by decide) h
  · exact hshort _ (by decide) h
  · exact hshort _ (by decide) h
  · exact hshort _ (by decide) h
  · exact hshort _ (by decide) h
  · rw [List.mem_singleton.mp h, Char.le_def, Char.le_def, UInt32.le_iff_toNat_le,
      UInt32.le_iff_toNat_le]
    show 0x20 ≤ (Char.ofNat code.val).toNat ∧ (Char.ofNat code.val).toNat ≤ 0x7E
    rw [toNat_ofNat (by omega)]
    exact hprint
  · exact printable_escapeUnit h
  · rcases List.mem_append.mp h with h | h <;> exact printable_escapeUnit h

theorem printable_quote {s : PyStr} {c : Char} (h : c ∈ quote s) : ' ' ≤ c ∧ c ≤ '~' := by
  rcases List.mem_append.mp h with h | h
  · rcases List.mem_cons.mp h with rfl | h
    · decide
    · obtain ⟨code, -, hc⟩ := List.mem_flatMap.mp h
      exact printable_escapeCode hc
  · rw [List.mem_singleton.mp h]
    decide

theorem printable_dumpInt {n : Int} {c : Char} (h : c ∈ dumpInt n) : ' ' ≤ c ∧ c ≤ '~' := by
  have hdigits : ∀ c ∈ Nat.toDigits 10 n.natAbs, ' ' ≤ c ∧ c ≤ '~' := by
    intro c hc
    have hdigit := Nat.isDigit_of_mem_toDigits (by decide) (by decide) hc
    simp only [Char.isDigit, Bool.and_eq_true, decide_eq_true_eq, ge_iff_le] at hdigit
    have hlow : (' ' : Char) ≤ '0' := by decide
    have hhigh : ('9' : Char) ≤ '~' := by decide
    exact ⟨Char.le_trans hlow hdigit.1, Char.le_trans hdigit.2 hhigh⟩
  unfold dumpInt at h
  split at h
  · rcases List.mem_cons.mp h with rfl | h
    · decide
    · exact hdigits c h
  · exact hdigits c h

theorem printable_dumpScalar {v : Scalar} {c : Char} (h : c ∈ dumpScalar v) :
    ' ' ≤ c ∧ c ≤ '~' := by
  have hword : ∀ w : List Char, (w.all fun c => ' ' ≤ c && c ≤ '~') = true → c ∈ w →
      ' ' ≤ c ∧ c ≤ '~' := by
    intro w hw hc
    simpa using List.all_eq_true.mp hw c hc
  cases v with
  | null => exact hword _ (by decide) h
  | bool b => cases b <;> exact hword _ (by decide) h
  | int n => exact printable_dumpInt h
  | str s => exact printable_quote h

theorem printable_separator {spaced : Bool} {e c : Char} (he : ' ' ≤ e ∧ e ≤ '~')
    (h : c ∈ separator spaced e) : ' ' ≤ c ∧ c ≤ '~' := by
  cases spaced with
  | false => rwa [List.mem_singleton.mp h]
  | true =>
    rcases List.mem_cons.mp h with rfl | h
    · exact he
    · rw [List.mem_singleton.mp h]
      decide

theorem printable_dumpMember {spaced : Bool} {m : PyStr × Scalar} {c : Char}
    (h : c ∈ dumpMember spaced m) : ' ' ≤ c ∧ c ≤ '~' := by
  rcases List.mem_append.mp h with h | h
  · rcases List.mem_append.mp h with h | h
    · exact printable_quote h
    · exact printable_separator (by decide) h
  · exact printable_dumpScalar h

theorem printable_dumpMembers {spaced : Bool} {ms : List (PyStr × Scalar)} {c : Char}
    (h : c ∈ dumpMembers spaced ms) : ' ' ≤ c ∧ c ≤ '~' := by
  induction ms with
  | nil => cases h
  | cons m ms ih =>
    cases ms with
    | nil => exact printable_dumpMember h
    | cons m' ms =>
      rcases List.mem_append.mp h with h | h
      · rcases List.mem_append.mp h with h | h
        · exact printable_dumpMember h
        · exact printable_separator (by decide) h
      · exact ih h

/-- A dictionary is written with printable ASCII only. -/
theorem printable_dictText {spaced : Bool} {ms : List (PyStr × Scalar)} {c : Char}
    (h : c ∈ dictText spaced ms) : ' ' ≤ c ∧ c ≤ '~' := by
  rcases List.mem_append.mp h with h | h
  · rcases List.mem_cons.mp h with rfl | h
    · decide
    · exact printable_dumpMembers h
  · rw [List.mem_singleton.mp h]
    decide

/-! ## Reading what was written -/

section

variable {spaced : Bool} {m : PyStr × Scalar} {ms : List (PyStr × Scalar)} {text : List Char}

theorem dumps_ok (h : dumps lim spaced (m :: ms) = .ok text) :
    text = '{' :: dumpMembers spaced (m :: ms) ++ ['}'] ∧
      ∀ x ∈ m :: ms, x.2.writable lim = true := by
  rw [dumps] at h
  split at h
  · rename_i hall
    exact ⟨(Except.ok.inj h).symm, fun x hx => List.all_eq_true.mp hall x hx⟩
  · cases h

/-- A dictionary that was written is read back. -/
theorem loads_dumps (h : dumps lim spaced (m :: ms) = .ok text) :
    loads lim text = .ok (.dict (readMembers [] (m :: ms))) := by
  obtain ⟨rfl, hwritable⟩ := dumps_ok h
  have hdepth : ([] : List Frame).length < lim.depth := lim.depth_pos
  obtain ⟨x, hx, hclose⟩ := inside_dict hdepth (Or.inl rfl) hwritable
  have hrun : run lim ⟨[], .value⟩ ('{' :: dumpMembers spaced (m :: ms) ++ ['}']) =
      .ok (place [] (.dict (readMembers [] (m :: ms)))) := by
    rw [run_append_of_ok hx.run, run_cons_of_ok hclose, run_nil]
  rw [loads, hrun]
  rfl

/-- A dictionary that was not written to its end is malformed. -/
theorem loads_dumps_cut (h : dumps lim spaced (m :: ms) = .ok text) {p : List Char}
    (hp : p <+: text) (hne : p ≠ text) : loads lim p = .error .decode := by
  obtain ⟨rfl, hwritable⟩ := dumps_ok h
  have hdepth : ([] : List Frame).length < lim.depth := lim.depth_pos
  obtain ⟨x, hx, -⟩ := inside_dict hdepth (Or.inl rfl) hwritable
  have hcut : p <+: '{' :: dumpMembers spaced (m :: ms) := by
    rcases List.prefix_concat_iff.mp hp with heq | hp
    · exact absurd heq hne
    · exact hp
  obtain ⟨y, hy, hearly⟩ := hx.cut p hcut
  rw [loads, hy]
  exact hearly

/-! ## Behind something else -/

/-- The reader has read something, and not gone astray. -/
def Started (x : Config) : Prop :=
  match x.mode with
  | .value | .firstItem | .firstKey | .key | .colon | .after => x.stack ≠ []
  | .literal rest _ => '{' ∉ rest
  | .complete _ | .string _ _ _ | .number _ _ => True

theorem started_place (stack : List Frame) (v : Value) : Started (place stack v) := by
  match stack with
  | [] => trivial
  | .list _ :: _ => exact List.cons_ne_nil _ _
  | .member _ _ :: _ => exact List.cons_ne_nil _ _
  | .dict _ :: _ => exact List.cons_ne_nil _ _

/-- One of the two branches came out. -/
theorem ok_of_ite {α : Type} {p : Prop} [Decidable p] {a b : Except Error α} {y : α}
    (h : (if p then a else b) = .ok y) : a = .ok y ∨ b = .ok y := by
  by_cases hp : p
  · rw [if_pos hp] at h
    exact Or.inl h
  · rw [if_neg hp] at h
    exact Or.inr h

theorem started_beginValue {stack : List Frame} {c : Char} {y : Config}
    (h : beginValue lim stack c = .ok y) : Started y := by
  have hframe : ∀ f mode, openFrame lim stack f mode = .ok y →
      mode = .firstKey ∨ mode = .firstItem → Started y := by
    intro f mode hopen hmode
    rw [openFrame] at hopen
    split at hopen
    · obtain rfl := Except.ok.inj hopen
      rcases hmode with rfl | rfl <;> exact List.cons_ne_nil _ _
    · cases hopen
  have hliteral : ∀ rest v, (.ok ⟨stack, .literal rest v⟩ : Except Error Config) = .ok y →
      '{' ∉ rest → Started y := by
    intro rest v hy hrest
    obtain rfl := Except.ok.inj hy
    exact hrest
  unfold beginValue at h
  rcases ok_of_ite h with h | h
  · obtain rfl := Except.ok.inj h
    trivial
  rcases ok_of_ite h with h | h
  · exact hframe _ _ h (Or.inl rfl)
  rcases ok_of_ite h with h | h
  · exact hframe _ _ h (Or.inr rfl)
  -- the three ways in which a number begins
  rcases ok_of_ite h with h | h
  · obtain rfl := Except.ok.inj h
    trivial
  rcases ok_of_ite h with h | h
  · obtain rfl := Except.ok.inj h
    trivial
  rcases ok_of_ite h with h | h
  · obtain rfl := Except.ok.inj h
    trivial
  rcases ok_of_ite h with h | h
  · exact hliteral _ _ h (by decide)
  rcases ok_of_ite h with h | h
  · exact hliteral _ _ h (by decide)
  rcases ok_of_ite h with h | h
  · exact hliteral _ _ h (by decide)
  rcases ok_of_ite h with h | h
  · exact hliteral _ _ h (by decide)
  rcases ok_of_ite h with h | h
  · exact hliteral _ _ h (by decide)
  · cases h

theorem started_afterValue {stack : List Frame} {mode : Mode} {c : Char} {y : Config}
    (hx : Started ⟨stack, mode⟩) (h : afterValue stack mode c = .ok y) : Started y := by
  unfold afterValue at h
  split at h
  · obtain rfl := Except.ok.inj h
    exact hx
  · split at h
    · split_ifs at h <;> obtain rfl := Except.ok.inj h
      · exact List.cons_ne_nil _ _
      · exact started_place _ _
    · split_ifs at h <;> obtain rfl := Except.ok.inj h
      · exact List.cons_ne_nil _ _
      · exact started_place _ _
    · cases h

theorem started_afterPlaced {x y : Config} {c : Char} (hx : Started x)
    (h : afterPlaced x c = .ok y) : Started y := by
  unfold afterPlaced at h
  split at h
  · split at h
    · obtain rfl := Except.ok.inj h
      exact hx
    · cases h
  · exact started_afterValue hx h

/-- Once something has been read, it stays read. -/
theorem started_of_step {x y : Config} {c : Char} (hx : Started x) (h : step lim x c = .ok y) :
    Started y := by
  obtain ⟨stack, mode⟩ := x
  cases mode with
  | value =>
    simp only [step] at h
    split at h
    · obtain rfl := Except.ok.inj h
      exact hx
    · exact started_beginValue h
  | firstItem =>
    simp only [step] at h
    split_ifs at h
    · obtain rfl := Except.ok.inj h
      exact hx
    · exact started_afterValue hx h
    · exact started_beginValue h
  | firstKey =>
    simp only [step] at h
    split_ifs at h
    · obtain rfl := Except.ok.inj h
      exact hx
    · obtain rfl := Except.ok.inj h
      trivial
    · exact started_afterValue hx h
  | key =>
    simp only [step] at h
    split_ifs at h <;> obtain rfl := Except.ok.inj h
    · exact hx
    · trivial
  | colon =>
    simp only [step] at h
    split_ifs at h <;> obtain rfl := Except.ok.inj h
    · exact hx
    · exact hx
  | after => exact started_afterPlaced hx h
  | complete v => exact started_afterPlaced hx h
  | string isKey part read =>
    simp only [step] at h
    cases part with
    | plain =>
      simp only [inString] at h
      split_ifs at h
      · split at h
        · obtain rfl := Except.ok.inj h
          exact List.cons_ne_nil _ _
        · cases h
      · obtain rfl := Except.ok.inj h
        exact started_place _ _
      all_goals
        obtain rfl := Except.ok.inj h
        trivial
    | backslash =>
      simp only [inString] at h
      split_ifs at h
      · obtain rfl := Except.ok.inj h
        trivial
      · split at h
        · obtain rfl := Except.ok.inj h
          trivial
        · cases h
    | hex count n =>
      simp only [inString] at h
      split at h
      · split_ifs at h <;> obtain rfl := Except.ok.inj h <;> trivial
      · cases h
  | number part read =>
    simp only [step] at h
    split at h
    · obtain rfl := Except.ok.inj h
      trivial
    · split at h
      · obtain rfl := Except.ok.inj h
        simp [Started]
      · cases hvalue : numberValue lim part read with
        | error e =>
          rw [hvalue] at h
          cases h
        | ok v =>
          rw [hvalue] at h
          exact started_afterPlaced (started_place stack v) h
  | literal rest v =>
    simp only [step] at h
    split at h
    · cases h
    · split at h
      · obtain rfl := Except.ok.inj h
        exact started_place _ _
      · cases h
    · split at h
      · obtain rfl := Except.ok.inj h
        exact fun hmem => hx (List.mem_cons_of_mem _ hmem)
      · cases h

theorem started_of_run {x y : Config} {cs : List Char} (hx : Started x) (h : run lim x cs = .ok y) :
    Started y := by
  induction cs generalizing x with
  | nil =>
    obtain rfl := Except.ok.inj h
    exact hx
  | cons c cs ih =>
    rw [run_cons] at h
    cases hstep : step lim x c with
    | error e =>
      rw [hstep] at h
      cases h
    | ok z =>
      rw [hstep] at h
      exact ih (started_of_step hx hstep) h

/-- No value comes out at the end. -/
def Fails (lim : Limits) (x : Config) (cs : List Char) : Prop :=
  ∀ v, (run lim x cs >>= finish lim) ≠ .ok v

theorem fails_of_step {x : Config} {c : Char} {e : Error} (h : step lim x c = .error e)
    (cs : List Char) : Fails lim x (c :: cs) := by
  intro v
  rw [run_cons, h]
  intro hv
  cases hv

theorem Fails.of_step {x y : Config} {c : Char} {cs : List Char} (h : step lim x c = .ok y)
    (hy : Fails lim y cs) : Fails lim x (c :: cs) := by
  intro v
  rw [run_cons_of_ok h]
  exact hy v

/-- A character that ends no value and no key. -/
theorem afterPlaced_error {c : Char} (hc : c ∉ [' ', '\t', '\n', '\r', ',', ':', ']', '}'])
    (stack : List Frame) (v : Value) : afterPlaced (place stack v) c = .error .decode := by
  simp only [List.mem_cons, List.not_mem_nil, or_false, not_or] at hc
  obtain ⟨h₁, h₂, h₃, h₄, hcomma, -, hbracket, hbrace⟩ := hc
  have hspace : ¬ isSpace c = true := by simp [isSpace, h₁, h₂, h₃, h₄]
  match stack with
  | [] => exact if_neg hspace
  | .list _ :: _ =>
    exact (if_neg hspace).trans ((if_neg hcomma).trans (if_neg hbracket))
  | .member _ _ :: _ =>
    exact (if_neg hspace).trans ((if_neg hcomma).trans (if_neg hbrace))
  | .dict _ :: _ =>
    exact (if_neg hspace).trans ((if_neg hcomma).trans (if_neg hbrace))

/-- A dictionary that is read where something was read before it is not the end of a text. -/
theorem fails_of_started {x : Config} (hx : Started x)
    (htext : dumps lim spaced (m :: ms) = .ok text) {c : Char} {rest : List Char}
    (hhead : text = '{' :: '"' :: c :: rest)
    (hc : c ∉ [' ', '\t', '\n', '\r', ',', ':', ']', '}']) : Fails lim x text := by
  obtain ⟨hdict, hwritable⟩ := dumps_ok htext
  obtain ⟨stack, mode⟩ := x
  -- where a value is due, the dictionary goes into the container that is open
  have hvalue : (mode = .value ∨ mode = .firstItem) → stack ≠ [] → Fails lim ⟨stack, mode⟩ text := by
    intro hmode hstack
    by_cases hdepth : stack.length < lim.depth
    · obtain ⟨y, hy, hclose⟩ := inside_dict hdepth hmode hwritable
      intro v
      rw [hdict, run_append_of_ok hy.run, run_cons_of_ok hclose, run_nil]
      match stack, hstack with
      | .list _ :: _, _ => exact fun hv => by cases hv
      | .member _ _ :: _, _ => exact fun hv => by cases hv
      | .dict _ :: _, _ => exact fun hv => by cases hv
    · rw [hhead]
      have hopen : step lim ⟨stack, mode⟩ '{' = .error .recursion := by
        have hframe : openFrame lim stack (.dict []) .firstKey = .error .recursion := if_neg hdepth
        rcases hmode with rfl | rfl <;> exact hframe
      exact fails_of_step hopen _
  have hbrace : step lim ⟨stack, .after⟩ '{' = .error .decode := by
    match stack with
    | [] => rfl
    | .list _ :: _ => rfl
    | .member _ _ :: _ => rfl
    | .dict _ :: _ => rfl
  cases mode with
  | value => exact hvalue (Or.inl rfl) hx
  | firstItem => exact hvalue (Or.inr rfl) hx
  | firstKey => rw [hhead]; exact fails_of_step rfl _
  | key => rw [hhead]; exact fails_of_step rfl _
  | colon => rw [hhead]; exact fails_of_step rfl _
  | after => rw [hhead]; exact fails_of_step hbrace _
  | complete v => rw [hhead]; exact fails_of_step rfl _
  | string isKey part read =>
    cases part with
    | plain =>
      -- the quote ends the string, and what comes then cannot follow it
      rw [hhead]
      apply Fails.of_step (y := ⟨stack, .string isKey .plain (push read (ord '{'))⟩) rfl
      cases isKey with
      | false =>
        apply Fails.of_step rfl
        apply fails_of_step (e := .decode)
        have herror := afterPlaced_error hc stack (.str (push read (ord '{')).reverse)
        match stack with
        | [] => exact herror
        | .list _ :: _ => exact herror
        | .member _ _ :: _ => exact herror
        | .dict _ :: _ => exact herror
      | true =>
        match stack with
        | [] => exact fails_of_step rfl _
        | .list _ :: _ => exact fails_of_step rfl _
        | .member _ _ :: _ => exact fails_of_step rfl _
        | .dict _ :: _ =>
          apply Fails.of_step rfl
          apply fails_of_step (e := .decode)
          simp only [List.mem_cons, List.not_mem_nil, or_false, not_or] at hc
          obtain ⟨h₁, h₂, h₃, h₄, -, hcolon, -, -⟩ := hc
          simp [step, isSpace, h₁, h₂, h₃, h₄, hcolon]
    | backslash => rw [hhead]; exact fails_of_step rfl _
    | hex count n => rw [hhead]; exact fails_of_step rfl _
  | number part read =>
    rw [hhead]
    have hnext : nextPart? part '{' = none := by cases part <;> rfl
    have hminus : ¬ (part = .minus ∧ ('{' : Char) = 'I') := by
      rintro ⟨-, h⟩
      cases h
    have hstep : step lim ⟨stack, .number part read⟩ '{' =
        numberValue lim part read >>= fun v => afterPlaced (place stack v) '{' := by
      simp only [step, hnext, if_neg hminus]
    cases hnumber : numberValue lim part read with
    | error e =>
      rw [hnumber] at hstep
      exact fails_of_step hstep _
    | ok v =>
      rw [hnumber] at hstep
      exact fails_of_step (hstep.trans (afterPlaced_error (by decide) stack v)) _
  | literal rest v =>
    rw [hhead]
    match rest with
    | [] => exact fails_of_step rfl _
    | d :: rest =>
      have hd : ('{' : Char) ≠ d := fun h => hx (h ▸ List.mem_cons_self)
      apply fails_of_step (e := .decode)
      match rest with
      | [] => simp [step, hd]
      | _ :: _ => simp [step, hd]

/-- Behind something that is not white space a dictionary is not read, and neither is what stands
before it. -/
theorem loads_behind (htext : dumps lim spaced (m :: ms) = .ok text) {c : Char} {rest : List Char}
    (hhead : text = '{' :: '"' :: c :: rest)
    (hc : c ∉ [' ', '\t', '\n', '\r', ',', ':', ']', '}']) {first : Char} {before : List Char}
    (hfirst : isSpace first = false) (v : Value) : loads lim (first :: before ++ text) ≠ .ok v := by
  rw [loads, run_append, run_cons]
  have hbegin : step lim ⟨[], .value⟩ first = beginValue lim [] first := by
    simp [step, hfirst]
  rw [hbegin]
  cases hstep : beginValue lim [] first with
  | error e => exact fun hv => by cases hv
  | ok x =>
    show (run lim x before >>= fun y => run lim y text) >>= finish lim ≠ .ok v
    cases hrun : run lim x before with
    | error e => exact fun hv => by cases hv
    | ok y =>
      have hy : Started y := started_of_run (started_beginValue hstep) hrun
      exact fails_of_started hy htext hhead hc v

end

end OpenHost.Json
