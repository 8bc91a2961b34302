import Mathlib.Data.List.Lex
import Mathlib.Data.List.Sort
import OpenHost.Library.JsonDumps

/-!
# Any value, written with sorted keys and read back

`json.dumps(value, sort_keys=True)` of a value with containers in it.  The text does not depend on
the order of a dictionary's keys, and reading it gives the value back with its keys in order, so two
values have one text exactly when they are the same up to that order.

## Reasoning

* `Settled`: the reader has taken a value, up to the character that ends it.  The rules for numbers,
  strings and containers compose along the value (`settles_text`).
* `loads_dumps_sorted`: what was written is read back, sorted.
* `dumps_sorted`: sorting first makes no difference.
-/

namespace OpenHost.Json

/-! ## Floats -/

/-- Where the reader is after the first character of a number. -/
def firstPart? (c : Char) : Option NumberPart :=
  if c = '-' then some .minus
  else if c = '0' then some .zero
  else if c.isDigit then some .digits
  else none

/-- Where the reader is after a number. -/
def numberPart? : List Char → Option NumberPart
  | [] => none
  | c :: cs => (firstPart? c).bind fun part => cs.foldlM nextPart? part

/-- The text is a number with a fraction or an exponent. -/
def isFraction (text : List Char) : Bool :=
  numberPart? text = some .fraction || numberPart? text = some .exponentDigits

/-- The texts that `json.dumps` has for floats: what `float.__repr__` gives, and three names. -/
def isFloat (text : List Char) : Bool :=
  isFraction text || text = "NaN".toList || text = "Infinity".toList ||
    text = "-Infinity".toList

theorem isFloat_iff {text : List Char} :
    isFloat text = true ↔ isFraction text = true ∨ text = "NaN".toList ∨
      text = "Infinity".toList ∨ text = "-Infinity".toList := by
  simp only [isFloat, Bool.or_eq_true, decide_eq_true_eq, or_assoc]

/-! ## The writer -/

mutual

/-- The text of a value, its keys in the order they are in. -/
def Value.text : Value → List Char
  | .null => "null".toList
  | .bool b => if b then "true".toList else "false".toList
  | .int n => dumpInt n
  | .float text => text
  | .str s => quote s
  | .list items => '[' :: itemsText true items ++ [']']
  | .dict members => '{' :: membersText true members ++ ['}']

/-- The items of a list, with a comma before each but the first. -/
def itemsText : Bool → List Value → List Char
  | _, [] => []
  | first, v :: vs => (if first then [] else [',', ' ']) ++ v.text ++ itemsText false vs

/-- The members of a dictionary, with a comma before each but the first. -/
def membersText : Bool → List (PyStr × Value) → List Char
  | _, [] => []
  | first, (key, v) :: ms =>
    (if first then [] else [',', ' ']) ++ quote key ++ [':', ' '] ++ v.text ++ membersText false ms

end

/-- `sort_keys` compares the keys, which are distinct. -/
def keyLe (m m' : PyStr × Value) : Prop := m.1 ≤ m'.1

instance : DecidableRel keyLe := fun m m' => inferInstanceAs (Decidable (m.1 ≤ m'.1))

instance : Std.Total keyLe := ⟨fun m m' => le_total m.1 m'.1⟩

instance : IsTrans (PyStr × Value) keyLe := ⟨fun _ _ _ h h' => le_trans h h'⟩

mutual

/-- The value with the keys of all its dictionaries in order. -/
def Value.sorted : Value → Value
  | .list items => .list (sortedItems items)
  | .dict members => .dict ((sortedMembers members).insertionSort keyLe)
  | v => v

def sortedItems : List Value → List Value
  | [] => []
  | v :: vs => v.sorted :: sortedItems vs

def sortedMembers : List (PyStr × Value) → List (PyStr × Value)
  | [] => []
  | (key, v) :: ms => (key, v.sorted) :: sortedMembers ms

end

mutual

/-- The writer gets through the value: no integer has too many digits, and no more than `depth`
containers are open at once. -/
def Value.fits (lim : Limits) : Nat → Value → Bool
  | _, .int n => (Nat.toDigits 10 n.natAbs).length ≤ lim.digits
  | 0, .list _ | 0, .dict _ => false
  | depth + 1, .list items => itemsFit lim depth items
  | depth + 1, .dict members => membersFit lim depth members
  | _, _ => true

def itemsFit (lim : Limits) (depth : Nat) : List Value → Bool
  | [] => true
  | v :: vs => v.fits lim depth && itemsFit lim depth vs

def membersFit (lim : Limits) (depth : Nat) : List (PyStr × Value) → Bool
  | [] => true
  | (_, v) :: ms => v.fits lim depth && membersFit lim depth ms

end

/-- `json.dumps(value, sort_keys=True)`, where it raises nothing: an integer with too many digits is
a `ValueError`, too many containers in one another are a `RecursionError`. -/
def dumpsSorted (lim : Limits) (v : Value) : Option (List Char) :=
  if v.fits lim lim.depth then some v.sorted.text else none

mutual

/-- The value is one that Python can hold and that no reading changes: keys are distinct, floats are
written the way Python writes them, and no two surrogates stand for one character. -/
def Value.wellFormed : Value → Bool
  | .float text => isFloat text
  | .str s => join s = s
  | .list items => itemsWellFormed items
  | .dict members => decide (members.map Prod.fst).Nodup && membersWellFormed members
  | _ => true

def itemsWellFormed : List Value → Bool
  | [] => true
  | v :: vs => v.wellFormed && itemsWellFormed vs

def membersWellFormed : List (PyStr × Value) → Bool
  | [] => true
  | (key, v) :: ms => decide (join key = key) && v.wellFormed && membersWellFormed ms

end

/-! ## Induction over a value -/

section

variable {P : Value → Prop} (null : P .null) (bool : ∀ b, P (.bool b)) (int : ∀ n, P (.int n))
  (float : ∀ text, P (.float text)) (str : ∀ s, P (.str s))
  (list : ∀ items, (∀ v ∈ items, P v) → P (.list items))
  (dict : ∀ members, (∀ m ∈ members, P m.2) → P (.dict members))

include null bool int float str list dict

set_option linter.unusedSectionVars false

mutual

/-- What holds of a container when it holds of its parts holds of every value. -/
@[elab_as_elim]
theorem Value.parts_induction : ∀ v, P v
  | .null => null
  | .bool b => bool b
  | .int n => int n
  | .float text => float text
  | .str s => str s
  | .list items => list items (items_induction items)
  | .dict members => dict members (members_induction members)

theorem items_induction : ∀ items : List Value, ∀ v ∈ items, P v
  | [] => by simp
  | v :: vs => by
    simp only [List.mem_cons, forall_eq_or_imp]
    exact ⟨Value.parts_induction v, items_induction vs⟩

theorem members_induction : ∀ members : List (PyStr × Value), ∀ m ∈ members, P m.2
  | [] => by simp
  | (_, v) :: ms => by
    simp only [List.mem_cons, forall_eq_or_imp]
    exact ⟨Value.parts_induction v, members_induction ms⟩

end

end

/-! ## The parts of a container -/

theorem sortedItems_eq (items : List Value) : sortedItems items = items.map Value.sorted := by
  induction items with
  | nil => simp [sortedItems]
  | cons v vs ih => simp [sortedItems, ih]

theorem sortedMembers_eq (members : List (PyStr × Value)) :
    sortedMembers members = members.map fun m => (m.1, m.2.sorted) := by
  induction members with
  | nil => simp [sortedMembers]
  | cons m ms ih => simp [sortedMembers, ih]

theorem itemsFit_iff {lim : Limits} {depth : Nat} {items : List Value} :
    itemsFit lim depth items = true ↔ ∀ v ∈ items, v.fits lim depth = true := by
  induction items with
  | nil => simp [itemsFit]
  | cons v vs ih => simp [itemsFit, ih]

theorem membersFit_iff {lim : Limits} {depth : Nat} {members : List (PyStr × Value)} :
    membersFit lim depth members = true ↔ ∀ m ∈ members, m.2.fits lim depth = true := by
  induction members with
  | nil => simp [membersFit]
  | cons m ms ih => simp [membersFit, ih]

theorem itemsWellFormed_iff {items : List Value} :
    itemsWellFormed items = true ↔ ∀ v ∈ items, v.wellFormed = true := by
  induction items with
  | nil => simp [itemsWellFormed]
  | cons v vs ih => simp [itemsWellFormed, ih]

theorem membersWellFormed_iff {members : List (PyStr × Value)} :
    membersWellFormed members = true ↔ ∀ m ∈ members, join m.1 = m.1 ∧ m.2.wellFormed = true := by
  induction members with
  | nil => simp [membersWellFormed]
  | cons m ms ih => simp [membersWellFormed, ih]

theorem dict_wellFormed_iff {members : List (PyStr × Value)} :
    (Value.dict members).wellFormed = true ↔ (members.map Prod.fst).Nodup ∧
      ∀ m ∈ members, join m.1 = m.1 ∧ m.2.wellFormed = true := by
  simp [Value.wellFormed, membersWellFormed_iff]

theorem list_wellFormed_iff {items : List Value} :
    (Value.list items).wellFormed = true ↔ ∀ v ∈ items, v.wellFormed = true := by
  rw [Value.wellFormed, itemsWellFormed_iff]

/-- A member of the sorted dictionary is a sorted member. -/
theorem mem_sorted_members {members : List (PyStr × Value)} {m : PyStr × Value} :
    m ∈ (sortedMembers members).insertionSort keyLe ↔
      ∃ m' ∈ members, (m'.1, m'.2.sorted) = m := by
  rw [List.mem_insertionSort, sortedMembers_eq, List.mem_map]

theorem sorted_keys_perm (members : List (PyStr × Value)) :
    (((sortedMembers members).insertionSort keyLe).map Prod.fst).Perm (members.map Prod.fst) := by
  have hperm := (List.perm_insertionSort keyLe (sortedMembers members)).map Prod.fst
  rw [sortedMembers_eq] at hperm ⊢
  simpa [List.map_map, Function.comp_def] using hperm

/-! ## Sorting -/

/-- A value whose keys are in order stays as it is. -/
theorem sorted_sorted (v : Value) : v.sorted.sorted = v.sorted := by
  induction v using Value.parts_induction with
  | null => rfl
  | bool b => rfl
  | int n => rfl
  | float text => rfl
  | str s => rfl
  | list items ih =>
    simp only [Value.sorted, sortedItems_eq, List.map_map, Value.list.injEq]
    exact List.map_congr_left ih
  | dict members ih =>
    simp only [Value.sorted, Value.dict.injEq]
    have hparts : sortedMembers ((sortedMembers members).insertionSort keyLe) =
        (sortedMembers members).insertionSort keyLe := by
      rw [sortedMembers_eq]
      -- each member of the sorted list has been sorted once
      conv_rhs => rw [← List.map_id ((sortedMembers members).insertionSort keyLe)]
      apply List.map_congr_left
      intro m hm
      obtain ⟨m', hm', rfl⟩ := mem_sorted_members.mp hm
      simp [ih m' hm']
    rw [hparts]
    exact (List.pairwise_insertionSort keyLe _).insertionSort_eq

theorem fits_sorted {lim : Limits} (v : Value) :
    ∀ depth, v.sorted.fits lim depth = v.fits lim depth := by
  induction v using Value.parts_induction with
  | null => exact fun _ => rfl
  | bool b => exact fun _ => rfl
  | int n => exact fun _ => rfl
  | float text => exact fun _ => rfl
  | str s => exact fun _ => rfl
  | list items ih =>
    intro depth
    cases depth with
    | zero => rfl
    | succ depth =>
      rw [Bool.eq_iff_iff]
      simp only [Value.sorted, Value.fits, itemsFit_iff, sortedItems_eq, List.mem_map,
        forall_exists_index, and_imp, forall_apply_eq_imp_iff₂]
      exact forall₂_congr fun v hv => by rw [ih v hv]
  | dict members ih =>
    intro depth
    cases depth with
    | zero => rfl
    | succ depth =>
      rw [Bool.eq_iff_iff]
      simp only [Value.sorted, Value.fits, membersFit_iff, mem_sorted_members,
        forall_exists_index, and_imp, forall_apply_eq_imp_iff₂]
      exact forall₂_congr fun m hm => by rw [ih m hm]

theorem wellFormed_sorted {v : Value} (h : v.wellFormed = true) : v.sorted.wellFormed = true := by
  induction v using Value.parts_induction with
  | null => rfl
  | bool b => rfl
  | int n => rfl
  | float text => exact h
  | str s => exact h
  | list items ih =>
    rw [list_wellFormed_iff] at h
    rw [Value.sorted, list_wellFormed_iff, sortedItems_eq]
    intro v hv
    obtain ⟨v', hv', rfl⟩ := List.mem_map.mp hv
    exact ih v' hv' (h v' hv')
  | dict members ih =>
    rw [dict_wellFormed_iff] at h
    rw [Value.sorted, dict_wellFormed_iff]
    refine ⟨(sorted_keys_perm members).nodup_iff.mpr h.1, fun m hm => ?_⟩
    obtain ⟨m', hm', rfl⟩ := mem_sorted_members.mp hm
    exact ⟨(h.2 m' hm').1, ih m' hm' (h.2 m' hm').2⟩

/-! ## Reading what was written -/

variable {lim : Limits} {stack : List Frame} {mode : Mode}

/-- What stands behind a value in a container. -/
def Closes (c : Char) : Prop := c = ',' ∨ c = '}' ∨ c = ']'

/-- A value may begin here. -/
def ValueDue (mode : Mode) : Prop := mode = .value ∨ mode = .firstItem

/-- In `x` the reader goes on as if it had placed the value that `y` has in its place. -/
structure Settled (lim : Limits) (x y : Config) : Prop where
  step : ∀ c, Closes c → step lim x c = afterPlaced y c
  finish : finish lim x = finish lim y

/-- The reader takes the text for the value. -/
def Takes (lim : Limits) (stack : List Frame) (mode : Mode) (text : List Char) (v : Value) : Prop :=
  ∃ x, run lim ⟨stack, mode⟩ text = .ok x ∧ Settled lim x (place stack v)

theorem settled_place (stack : List Frame) (v : Value) :
    Settled lim (place stack v) (place stack v) := by
  refine ⟨fun c _ => ?_, rfl⟩
  cases stack with
  | nil => rfl
  | cons frame stack => cases frame <;> rfl

theorem takes_of_run {text : List Char} {v : Value}
    (h : run lim ⟨stack, mode⟩ text = .ok (place stack v)) : Takes lim stack mode text v :=
  ⟨_, h, settled_place stack v⟩

/-- The first character of a value. -/
theorem step_begin (hmode : ValueDue mode) {c : Char} (hspace : isSpace c = false) (hc : c ≠ ']') :
    step lim ⟨stack, mode⟩ c = beginValue lim stack c := by
  rcases hmode with rfl | rfl
  · simp [step, hspace]
  · simp [step, hspace, hc]

/-! ### Numbers -/

theorem run_number {part part' : NumberPart} {read text : List Char}
    (h : text.foldlM nextPart? part = some part') :
    run lim ⟨stack, .number part read⟩ text = .ok ⟨stack, .number part' (read ++ text)⟩ := by
  induction text generalizing part read with
  | nil =>
    simp only [List.foldlM_nil, pure, Option.some.injEq] at h
    simp [h]
  | cons c cs ih =>
    rw [List.foldlM_cons] at h
    obtain ⟨next, hnext, hrest⟩ := Option.bind_eq_some_iff.mp h
    have hstep : step lim ⟨stack, .number part read⟩ c =
        .ok ⟨stack, .number next (read ++ [c])⟩ := by
      simp only [step, hnext]
    rw [run_cons_of_ok hstep, ih hrest, List.append_assoc]
    rfl

theorem isSpace_of_firstPart? {c : Char} {part : NumberPart} (h : firstPart? c = some part) :
    isSpace c = false ∧ c ≠ ']' := by
  have hno : ∀ d ∈ [' ', '\t', '\n', '\r', ']'], firstPart? d = none := by
    simp only [List.forall_mem_cons]
    exact ⟨rfl, rfl, rfl, rfl, rfl, by simp⟩
  have hne : ∀ d ∈ [' ', '\t', '\n', '\r', ']'], c ≠ d := by
    intro d hd heq
    rw [heq, hno d hd] at h
    cases h
  simp only [List.mem_cons, List.not_mem_nil, or_false, forall_eq_or_imp, forall_eq] at hne
  simp [isSpace, hne]

theorem beginValue_of_firstPart? {c : Char} {part : NumberPart} (h : firstPart? c = some part) :
    beginValue lim stack c = .ok ⟨stack, .number part [c]⟩ := by
  have hno : ∀ d ∈ ['"', '{', '['], firstPart? d = none := by
    simp only [List.forall_mem_cons]
    exact ⟨rfl, rfl, rfl, by simp⟩
  have hne : ∀ d ∈ ['"', '{', '['], c ≠ d := by
    intro d hd heq
    rw [heq, hno d hd] at h
    cases h
  simp only [List.mem_cons, List.not_mem_nil, or_false, forall_eq_or_imp, forall_eq] at hne
  unfold firstPart? at h
  simp only [beginValue, if_neg hne.1, if_neg hne.2.1, if_neg hne.2.2]
  split at h
  · rename_i hc
    simp [hc, ← Option.some.inj h]
  · rename_i hminus
    split at h
    · rename_i hc
      simp [hc, ← Option.some.inj h]
    · rename_i hzero
      split at h
      · rename_i hdigit
        simp [hminus, hzero, hdigit, ← Option.some.inj h]
      · cases h

/-- A number that a value may consist of. -/
def Complete (part : NumberPart) : Prop :=
  part = .zero ∨ part = .digits ∨ part = .fraction ∨ part = .exponentDigits

theorem settled_number {part : NumberPart} (hpart : Complete part) {read : List Char} {v : Value}
    (hvalue : numberValue lim part read = .ok v) :
    Settled lim ⟨stack, .number part read⟩ (place stack v) := by
  refine ⟨fun c hc => ?_, ?_⟩
  · have hnext : nextPart? part c = none := by
      rcases hpart with rfl | rfl | rfl | rfl <;> rcases hc with rfl | rfl | rfl <;> rfl
    have hminus : ¬(part = .minus ∧ c = 'I') := by
      rintro ⟨rfl, -⟩
      rcases hpart with h | h | h | h <;> cases h
    simp only [step, hnext, if_neg hminus, hvalue]
    rfl
  · simp only [finish, hvalue]
    cases stack with
    | nil => rfl
    | cons frame stack => cases frame <;> rfl

theorem takes_number (hmode : ValueDue mode) {part : NumberPart} (hpart : Complete part)
    {text : List Char} {v : Value} (hnumber : numberPart? text = some part)
    (hvalue : numberValue lim part text = .ok v) : Takes lim stack mode text v := by
  cases text with
  | nil => cases hnumber
  | cons c cs =>
    obtain ⟨first, hfirst, hrest⟩ := Option.bind_eq_some_iff.mp hnumber
    obtain ⟨hspace, hbracket⟩ := isSpace_of_firstPart? hfirst
    refine ⟨_, ?_, settled_number hpart hvalue⟩
    rw [run_cons_of_ok ((step_begin hmode hspace hbracket).trans (beginValue_of_firstPart? hfirst)),
      run_number hrest]
    rfl

theorem foldlM_digits {ds : List Char} (hds : ∀ c ∈ ds, c.isDigit = true) :
    ds.foldlM nextPart? .digits = some .digits := by
  induction ds with
  | nil => rfl
  | cons c cs ih =>
    have hc : nextPart? .digits c = some .digits := by
      simp [nextPart?, hds c List.mem_cons_self]
    rw [List.foldlM_cons, hc]
    exact ih fun d hd => hds d (List.mem_cons_of_mem c hd)

/-- An integer is a zero, or digits the first of which is none. -/
theorem numberPart?_dumpInt (n : Int) :
    numberPart? (dumpInt n) = some .zero ∨ numberPart? (dumpInt n) = some .digits := by
  by_cases hzero : n = 0
  · subst hzero
    exact .inl rfl
  · obtain ⟨first, rest, hcons, hfirst⟩ := toDigits_cons (n := n.natAbs) (by omega)
    have hdigits : ∀ c ∈ first :: rest, c.isDigit = true := by
      intro c hc
      rw [← hcons] at hc
      exact isDigit_of_mem_toDigits hc
    have hdigit := hdigits first List.mem_cons_self
    have hrest := foldlM_digits fun c hc => hdigits c (List.mem_cons_of_mem first hc)
    right
    unfold dumpInt
    rw [hcons]
    split
    · -- behind a minus sign
      have hnext : nextPart? .minus first = some .digits := by simp [nextPart?, hfirst, hdigit]
      simp [numberPart?, firstPart?, hnext, hrest]
    · have hminus : first ≠ '-' := by
        intro h
        rw [h] at hdigit
        cases hdigit
      simp [numberPart?, firstPart?, hminus, hfirst, hdigit, hrest]

theorem takes_dumpInt (hmode : ValueDue mode) {n : Int}
    (h : (Nat.toDigits 10 n.natAbs).length ≤ lim.digits) :
    Takes lim stack mode (dumpInt n) (.int n) := by
  have hint := intValue_dumpInt h
  rcases numberPart?_dumpInt n with hpart | hpart
  · exact takes_number hmode (.inl rfl) hpart (by simp [numberValue, hint, Except.map])
  · exact takes_number hmode (.inr (.inl rfl)) hpart (by simp [numberValue, hint, Except.map])

theorem takes_float (hmode : ValueDue mode) {text : List Char} (h : isFloat text = true) :
    Takes lim stack mode text (.float text) := by
  rw [isFloat_iff] at h
  simp only [isFraction, Bool.or_eq_true, decide_eq_true_eq] at h
  rcases h with (hpart | hpart) | rfl | rfl | rfl
  · exact takes_number hmode (.inr (.inr (.inl rfl))) hpart rfl
  · exact takes_number hmode (.inr (.inr (.inr rfl))) hpart rfl
  · apply takes_of_run
    rcases hmode with rfl | rfl <;> rfl
  · apply takes_of_run
    rcases hmode with rfl | rfl <;> rfl
  · apply takes_of_run
    rcases hmode with rfl | rfl <;> rfl

/-! ### Strings -/

theorem takes_quote (hmode : ValueDue mode) (s : PyStr) :
    Takes lim stack mode (quote s) (.str (join s)) := by
  apply takes_of_run
  have hopen : step lim ⟨stack, mode⟩ '"' = .ok ⟨stack, .string false .plain []⟩ :=
    step_begin hmode rfl (by decide)
  have hbody : run lim ⟨stack, .string false .plain []⟩ (s.flatMap escapeCode) = .ok _ :=
    (inside_escaped s stack false []).run
  rw [quote, List.cons_append, run_cons_of_ok hopen, run_append_of_ok hbody]
  rfl

/-- What is read back is read back as it is. -/
theorem joined_join (s : PyStr) : Joined (join s) := by
  have htakes (s : PyStr) : Takes defaultLimits [] .value (quote s) (.str (join s)) :=
    takes_quote (.inl rfl) s
  obtain ⟨x, hx, hsettled⟩ := htakes s
  obtain ⟨y, hy, hsettled'⟩ := htakes (join s)
  -- the two have one text, which is read only once
  rw [quote_join, hx] at hy
  cases hy
  have hread := hsettled'.finish.symm.trans hsettled.finish
  exact Value.str.inj (Except.ok.inj hread)

/-! ### Containers -/

/-- The rest of a list, once its items so far have been read. -/
theorem run_items {x : Config} {done items : List Value}
    (hx : Settled lim x ⟨.list done :: stack, .after⟩)
    (hitems : ∀ v ∈ items, ∀ d, Takes lim (.list d :: stack) .value v.text v) :
    run lim x (itemsText false items ++ [']']) = .ok (place stack (.list (done ++ items))) := by
  induction items generalizing x done with
  | nil =>
    have hclose : step lim x ']' = .ok (place stack (.list done)) :=
      hx.step ']' (.inr (.inr rfl))
    simp only [itemsText, List.nil_append, List.append_nil]
    rw [run_cons_of_ok hclose, run_nil]
  | cons v vs ih =>
    have hcomma : step lim x ',' = .ok ⟨.list done :: stack, .value⟩ := hx.step ',' (.inl rfl)
    have hblank : step lim ⟨.list done :: stack, .value⟩ ' ' =
        .ok ⟨.list done :: stack, .value⟩ := rfl
    obtain ⟨y, hy, hsettled⟩ := hitems v List.mem_cons_self done
    have hrest := ih hsettled fun w hw => hitems w (List.mem_cons_of_mem v hw)
    simp only [itemsText, Bool.false_eq_true, if_false, List.cons_append, List.nil_append,
      List.append_assoc]
    rw [run_cons_of_ok hcomma, run_cons_of_ok hblank, run_append_of_ok hy, hrest,
      List.append_assoc]
    rfl

theorem takes_list (hmode : ValueDue mode) (hdepth : stack.length < lim.depth)
    {items : List Value}
    (hitems : ∀ v ∈ items, ∀ d mode, ValueDue mode → Takes lim (.list d :: stack) mode v.text v) :
    Takes lim stack mode (Value.list items).text (.list items) := by
  apply takes_of_run
  have hopen : step lim ⟨stack, mode⟩ '[' = .ok ⟨.list [] :: stack, .firstItem⟩ := by
    rw [step_begin hmode rfl (by decide)]
    exact if_pos hdepth
  rw [Value.text, List.cons_append, run_cons_of_ok hopen]
  cases items with
  | nil => rfl
  | cons v vs =>
    obtain ⟨y, hy, hsettled⟩ := hitems v List.mem_cons_self [] .firstItem (.inr rfl)
    have hrest := @run_items _ _ _ [v] _ hsettled fun w hw d =>
      hitems w (List.mem_cons_of_mem v hw) d .value (.inl rfl)
    simp only [itemsText, if_true, List.nil_append, List.append_assoc]
    rw [run_append_of_ok hy, hrest]
    rfl

/-- One member of a dictionary, from where its key is due. -/
theorem run_member {mode : Mode} (hmode : KeyDue mode) {done : List (PyStr × Value)}
    {m : PyStr × Value} (hkey : join m.1 = m.1)
    (hvalue : Takes lim (.member done m.1 :: stack) .value m.2.text m.2) :
    ∃ y, run lim ⟨.dict done :: stack, mode⟩ (quote m.1 ++ [':', ' '] ++ m.2.text) = .ok y ∧
      Settled lim y ⟨.dict (setItem done m.1 m.2) :: stack, .after⟩ := by
  have hopen : step lim ⟨.dict done :: stack, mode⟩ '"' =
      .ok ⟨.dict done :: stack, .string true .plain []⟩ := by
    rcases hmode with rfl | rfl <;> rfl
  have hbody : run lim ⟨.dict done :: stack, .string true .plain []⟩ (m.1.flatMap escapeCode) =
      .ok _ :=
    (inside_escaped m.1 (.dict done :: stack) true []).run
  have hclose : step lim ⟨.dict done :: stack, .string true .plain (m.1.foldl push [])⟩ '"' =
      .ok ⟨.member done m.1 :: stack, .colon⟩ := by
    have hread : (m.1.foldl push []).reverse = m.1 := hkey
    simp [step, inString, hread]
  have hcolon : step lim ⟨.member done m.1 :: stack, .colon⟩ ':' =
      .ok ⟨.member done m.1 :: stack, .value⟩ := rfl
  have hblank : step lim ⟨.member done m.1 :: stack, .value⟩ ' ' =
      .ok ⟨.member done m.1 :: stack, .value⟩ := rfl
  obtain ⟨y, hy, hsettled⟩ := hvalue
  refine ⟨y, ?_, hsettled⟩
  simp only [quote, List.cons_append, List.nil_append, List.append_assoc]
  rw [run_cons_of_ok hopen, run_append_of_ok hbody, run_cons_of_ok hclose, run_cons_of_ok hcolon,
    run_cons_of_ok hblank, hy]

theorem setItem_of_new {d : List (PyStr × Value)} {key : PyStr} (h : key ∉ d.map Prod.fst)
    (v : Value) : setItem d key v = d ++ [(key, v)] := if_neg h

/-- The rest of a dictionary, once its members so far have been read. -/
theorem run_members {x : Config} {done members : List (PyStr × Value)}
    (hx : Settled lim x ⟨.dict done :: stack, .after⟩)
    (hkeys : ((done ++ members).map Prod.fst).Nodup)
    (hmembers : ∀ m ∈ members, join m.1 = m.1 ∧
      ∀ d, Takes lim (.member d m.1 :: stack) .value m.2.text m.2) :
    run lim x (membersText false members ++ ['}']) =
      .ok (place stack (.dict (done ++ members))) := by
  induction members generalizing x done with
  | nil =>
    have hclose : step lim x '}' = .ok (place stack (.dict done)) :=
      hx.step '}' (.inr (.inl rfl))
    simp only [membersText, List.nil_append, List.append_nil]
    rw [run_cons_of_ok hclose, run_nil]
  | cons m ms ih =>
    have hcomma : step lim x ',' = .ok ⟨.dict done :: stack, .key⟩ := hx.step ',' (.inl rfl)
    have hblank : step lim ⟨.dict done :: stack, .key⟩ ' ' = .ok ⟨.dict done :: stack, .key⟩ := rfl
    obtain ⟨hkey, hvalue⟩ := hmembers m List.mem_cons_self
    obtain ⟨y, hy, hsettled⟩ := run_member (.inr rfl) hkey (hvalue done)
    have hnew : m.1 ∉ done.map Prod.fst := by
      rw [List.map_append, List.map_cons] at hkeys
      exact fun hmem => (List.nodup_append.mp hkeys).2.2 _ hmem _ List.mem_cons_self rfl
    rw [setItem_of_new hnew] at hsettled
    have hrest := ih hsettled (by simpa using hkeys)
      fun m' hm' => hmembers m' (List.mem_cons_of_mem m hm')
    have htext : membersText false (m :: ms) ++ ['}'] =
        ',' :: ' ' :: (quote m.1 ++ [':', ' '] ++ m.2.text) ++ (membersText false ms ++ ['}']) := by
      simp [membersText]
    rw [htext, List.cons_append, List.cons_append, run_cons_of_ok hcomma, run_cons_of_ok hblank,
      run_append_of_ok hy, hrest, List.append_assoc]
    rfl

theorem takes_dict (hmode : ValueDue mode) (hdepth : stack.length < lim.depth)
    {members : List (PyStr × Value)} (hkeys : (members.map Prod.fst).Nodup)
    (hmembers : ∀ m ∈ members, join m.1 = m.1 ∧
      ∀ d, Takes lim (.member d m.1 :: stack) .value m.2.text m.2) :
    Takes lim stack mode (Value.dict members).text (.dict members) := by
  apply takes_of_run
  have hopen : step lim ⟨stack, mode⟩ '{' = .ok ⟨.dict [] :: stack, .firstKey⟩ := by
    rw [step_begin hmode rfl (by decide)]
    exact if_pos hdepth
  rw [Value.text, List.cons_append, run_cons_of_ok hopen]
  cases members with
  | nil => rfl
  | cons m ms =>
    obtain ⟨hkey, hvalue⟩ := hmembers m List.mem_cons_self
    obtain ⟨y, hy, hsettled⟩ := run_member (.inl rfl) hkey (hvalue [])
    have hrest := @run_members _ _ _ [m] _ hsettled (by simpa using hkeys)
      fun m' hm' => hmembers m' (List.mem_cons_of_mem m hm')
    have htext : membersText true (m :: ms) ++ ['}'] =
        (quote m.1 ++ [':', ' '] ++ m.2.text) ++ (membersText false ms ++ ['}']) := by
      simp [membersText]
    rw [htext, run_append_of_ok hy, hrest]
    rfl

/-- The reader takes the text of a value for the value. -/
theorem takes_text (v : Value) : ∀ (stack : List Frame) (mode : Mode) (depth : Nat), ValueDue mode →
    stack.length + depth ≤ lim.depth → v.fits lim depth = true → v.wellFormed = true →
    Takes lim stack mode v.text v := by
  induction v using Value.parts_induction with
  | null =>
    intro stack mode depth hmode _ _ _
    apply takes_of_run
    rcases hmode with rfl | rfl <;> rfl
  | bool b =>
    intro stack mode depth hmode _ _ _
    apply takes_of_run
    cases b <;> rcases hmode with rfl | rfl <;> rfl
  | int n =>
    intro stack mode depth hmode _ hfits _
    refine takes_dumpInt hmode ?_
    simpa [Value.fits] using hfits
  | float text =>
    intro stack mode depth hmode _ _ hwell
    exact takes_float hmode hwell
  | str s =>
    intro stack mode depth hmode _ _ hwell
    have hjoin : join s = s := of_decide_eq_true hwell
    have htakes : Takes lim stack mode (quote s) (.str (join s)) := takes_quote hmode s
    rwa [hjoin] at htakes
  | list items ih =>
    intro stack mode depth hmode hdepth hfits hwell
    cases depth with
    | zero => cases hfits
    | succ depth =>
      rw [Value.fits, itemsFit_iff] at hfits
      rw [list_wellFormed_iff] at hwell
      refine takes_list hmode (by omega) fun v hv d mode hmode => ?_
      refine ih v hv _ mode depth hmode ?_ (hfits v hv) (hwell v hv)
      rw [List.length_cons]
      omega
  | dict members ih =>
    intro stack mode depth hmode hdepth hfits hwell
    cases depth with
    | zero => cases hfits
    | succ depth =>
      rw [Value.fits, membersFit_iff] at hfits
      rw [dict_wellFormed_iff] at hwell
      refine takes_dict hmode (by omega) hwell.1 fun m hm => ⟨(hwell.2 m hm).1, fun d => ?_⟩
      refine ih m hm _ .value depth (.inl rfl) ?_ (hfits m hm) (hwell.2 m hm).2
      rw [List.length_cons]
      omega

/-! ## The round trip -/

/-- What was written is read back. -/
theorem loads_text {v : Value} (hwell : v.wellFormed = true) (hfits : v.fits lim lim.depth = true) :
    loads lim v.text = .ok v := by
  obtain ⟨x, hx, hsettled⟩ := takes_text v [] .value lim.depth (.inl rfl) (by simp) hfits hwell
  rw [loads, hx]
  exact hsettled.finish

/-- The same with the keys in order. -/
theorem loads_dumpsSorted {v : Value} {text : List Char} (hwell : v.wellFormed = true)
    (h : dumpsSorted lim v = some text) : loads lim text = .ok v.sorted := by
  unfold dumpsSorted at h
  split at h
  · rename_i hfits
    rw [← fits_sorted] at hfits
    rw [← Option.some.inj h]
    exact loads_text (wellFormed_sorted hwell) hfits
  · cases h

theorem dumpsSorted_sorted (v : Value) : dumpsSorted lim v.sorted = dumpsSorted lim v := by
  rw [dumpsSorted, dumpsSorted, fits_sorted, sorted_sorted]

/-- Two values have one text exactly when they are the same up to the order of keys. -/
theorem dumpsSorted_inj {v w : Value} {text : List Char} (hv : v.wellFormed = true)
    (hw : w.wellFormed = true) (h : dumpsSorted lim v = some text)
    (h' : dumpsSorted lim w = some text) : v.sorted = w.sorted :=
  Except.ok.inj ((loads_dumpsSorted hv h).symm.trans (loads_dumpsSorted hw h'))

end OpenHost.Json
