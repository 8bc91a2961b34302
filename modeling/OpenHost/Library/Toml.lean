import OpenHost.Library.JsonValues
import OpenHost.Library.Raises

/-!
# What a TOML reader returns

`tomllib.loads` gives dictionaries, lists, texts, numbers, Booleans, dates and times, and any of them
can stand where a program expects another.  This module has the operations that a program applies to
a value before it knows what it is: `d.get(key)`, `not v`, `isinstance`, `v == w`, and what of a value
can be written as JSON.
-/

namespace OpenHost.Toml

open OpenHost.Raises

/-! ## Values -/

/-- A finite `float`, by the text that `float.__repr__` gives. -/
structure FloatRepr where
  text : List Char
  fraction : Json.isFraction text = true
  deriving DecidableEq

/-- A `float` -/
inductive PyFloat where
  | finite (x : FloatRepr)
  | infinity (negative : Bool)
  | nan
  deriving DecidableEq

/-- A date or a time, in days and microseconds. -/
inductive Temporal where
  /-- A `datetime` with an offset from UTC: its instant, and the offset. -/
  | aware (instant offset : Int)
  | naive (micros : Int)
  | date (days : Int)
  | time (micros : Int)
  deriving DecidableEq

/-- A value of a TOML document. -/
inductive Value where
  | str (s : String)
  | int (n : Int)
  | float (x : PyFloat)
  | bool (b : Bool)
  | temporal (t : Temporal)
  | array (items : List Value)
  | table (entries : List (String × Value))

/-- A `dict` -/
abbrev Table := List (String × Value)

/-! ### Induction over a value -/

section

variable {P : Value → Prop} (str : ∀ s, P (.str s)) (int : ∀ n, P (.int n))
  (float : ∀ x, P (.float x)) (bool : ∀ b, P (.bool b)) (temporal : ∀ t, P (.temporal t))
  (array : ∀ items, (∀ v ∈ items, P v) → P (.array items))
  (table : ∀ entries, (∀ m ∈ entries, P m.2) → P (.table entries))

include str int float bool temporal array table

set_option linter.unusedSectionVars false

mutual

/-- What holds of a container when it holds of its parts holds of every value. -/
@[elab_as_elim]
theorem Value.parts_induction : ∀ v, P v
  | .str s => str s
  | .int n => int n
  | .float x => float x
  | .bool b => bool b
  | .temporal t => temporal t
  | .array items => array items (items_induction items)
  | .table entries => table entries (entries_induction entries)

theorem items_induction : ∀ items : List Value, ∀ v ∈ items, P v
  | [] => by simp
  | v :: vs => by
    simp only [List.mem_cons, forall_eq_or_imp]
    exact ⟨Value.parts_induction v, items_induction vs⟩

theorem entries_induction : ∀ entries : Table, ∀ m ∈ entries, P m.2
  | [] => by simp
  | (_, v) :: ms => by
    simp only [List.mem_cons, forall_eq_or_imp]
    exact ⟨Value.parts_induction v, entries_induction ms⟩

end

end

/-! ## What a program asks of a value -/

namespace Value

/-- `type(v).__name__` -/
def typeName : Value → String
  | str _ => "str"
  | int _ => "int"
  | float _ => "float"
  | bool _ => "bool"
  | temporal (.aware _ _) | temporal (.naive _) => "datetime"
  | temporal (.date _) => "date"
  | temporal (.time _) => "time"
  | array _ => "list"
  | table _ => "dict"

/-- `bool(v)` -/
def truthy : Value → Bool
  | str s => s ≠ ""
  | int n => n ≠ 0
  | float (.finite x) => x.text ≠ "0.0".toList && x.text ≠ "-0.0".toList
  | float _ => true
  | bool b => b
  | temporal _ => true
  | array items => !items.isEmpty
  | table entries => !entries.isEmpty

/-- `isinstance(v, int)`: a `bool` is an `int`. -/
def int? : Value → Option Int
  | int n => some n
  | bool b => some b.toInt
  | _ => none

/-- `isinstance(v, str)` -/
def str? : Value → Option String
  | str s => some s
  | _ => none

/-- `isinstance(v, dict)` -/
def table? : Value → Option Table
  | table entries => some entries
  | _ => none

/-- `isinstance(v, list)` -/
def array? : Value → Option (List Value)
  | array items => some items
  | _ => none

/-- The value is a `bool`. -/
def isBool : Value → Bool
  | bool _ => true
  | _ => false

/-- The value is a list of texts. -/
def isTexts : Value → Bool
  | array items => items.all fun v => v.str?.isSome
  | _ => false

/-- `a or b` -/
def orElse (a b : Value) : Value := if a.truthy then a else b

end Value

/-- `d.get(key)` of a dictionary. -/
def Table.get? (entries : Table) (key : String) : Option Value := entries.lookup key

/-- `d.get(key, default)` of a dictionary. -/
def Table.getD (entries : Table) (key : String) (default : Value) : Value :=
  (Table.get? entries key).getD default

/-- The dictionary that `v.get(...)` looks into: only a dictionary has that attribute. -/
def getsFrom (v : Value) : Result Table :=
  match v with
  | .table entries => .ok entries
  | v => .error (.attributeError ("'" ++ v.typeName ++ "' object has no attribute 'get'"))

/-- `for x in v`: the keys of a dictionary, the characters of a text. -/
def iterate (v : Value) : Result (List Value) :=
  match v with
  | .array items => .ok items
  | .table entries => .ok (entries.map fun m => .str m.1)
  | .str s => .ok (s.toList.map fun c => .str (String.ofList [c]))
  | v => .error (.typeError ("'" ++ v.typeName ++ "' object is not iterable"))

/-- `needle in text` -/
def isSubstring (needle text : String) : Bool :=
  text.toList.tails.any fun rest => needle.toList.isPrefixOf rest

/-- `key in v` for a text `key`. -/
def contains (v : Value) (key : String) : Result Bool :=
  match v with
  | .table entries => .ok (entries.any fun m => m.1 = key)
  | .array items => .ok (items.any fun x => x.str? = some key)
  | .str s => .ok (isSubstring key s)
  | v => .error (.typeError ("argument of type '" ++ v.typeName ++ "' is not iterable"))

/-! ## Equality -/

/-- `a == b` for dates and times. -/
def Temporal.eq : Temporal → Temporal → Bool
  | aware instant _, aware instant' _ => instant = instant'
  | t, t' => t = t'

/-- The text is that of a zero. -/
def FloatRepr.isZero (x : FloatRepr) : Bool := x.text = "0.0".toList || x.text = "-0.0".toList

/-- `a == b` for floats. -/
def PyFloat.eq : PyFloat → PyFloat → Bool
  | finite x, finite y => x = y || (x.isZero && y.isZero)
  | infinity n, infinity n' => n = n'
  | _, _ => false

section

-- `n == x` for an integer and a finite float
variable (intEqFloat : Int → FloatRepr → Bool)

mutual

/-- `v == w` -/
def Value.eq : Value → Value → Bool
  | .str s, w => w.str? = some s
  | .temporal t, .temporal t' => t.eq t'
  | .array items, .array items' => itemsEq items items'
  | .table entries, .table entries' =>
    entries.length = entries'.length && entriesEq entries entries'
  | .float x, .float y => x.eq y
  | .float (.finite x), w => w.int?.any fun n => intEqFloat n x
  | .int n, .float (.finite x) => intEqFloat n x
  | .int n, w => w.int? = some n
  | .bool b, .float (.finite x) => intEqFloat b.toInt x
  | .bool b, w => w.int? = some b.toInt
  | _, _ => false

def itemsEq : List Value → List Value → Bool
  | [], [] => true
  | v :: vs, w :: ws => v.eq w && itemsEq vs ws
  | _, _ => false

def entriesEq : Table → Table → Bool
  | [], _ => true
  | (key, v) :: ms, entries => ((Table.get? entries key).any fun w => v.eq w) && entriesEq ms entries

end

end

theorem table_eq {f : Int → FloatRepr → Bool} {entries entries' : Table} :
    (Value.table entries).eq f (.table entries') =
      (decide (entries.length = entries'.length) && entriesEq f entries entries') := by
  rw [Value.eq]

theorem str_eq_iff {f : Int → FloatRepr → Bool} {s s' : String} :
    (Value.str s).eq f (.str s') = true ↔ s = s' := by
  simp [Value.eq, Value.str?, eq_comm]

@[simp] theorem str?_str (s : String) : (Value.str s).str? = some s := rfl

/-- Lists of values of one kind are equal when what tells the values apart is. -/
theorem itemsEq_map_iff {α β : Type} {f : Int → FloatRepr → Bool} (g : α → Value) (k : α → β)
    (h : ∀ a b, (g a).eq f (g b) = true ↔ k a = k b) (l l' : List α) :
    itemsEq f (l.map g) (l'.map g) = true ↔ l.map k = l'.map k := by
  induction l generalizing l' with
  | nil => cases l' <;> simp [itemsEq]
  | cons a l ih =>
    cases l' with
    | nil => simp [itemsEq]
    | cons b l' => simp [itemsEq, h, ih]

/-! ## As JSON -/

/-- A float as `json.dumps` writes it. -/
def PyFloat.jsonText : PyFloat → List Char
  | finite x => x.text
  | infinity false => "Infinity".toList
  | infinity true => "-Infinity".toList
  | nan => "NaN".toList

mutual

/-- The value as JSON has it: there are no dates and times in JSON. -/
def Value.json? : Value → Option Json.Value
  | .str s => some (.str (Json.ofString s))
  | .int n => some (.int n)
  | .float x => some (.float x.jsonText)
  | .bool b => some (.bool b)
  | .temporal _ => none
  | .array items => (itemsJson? items).map .list
  | .table entries => (entriesJson? entries).map .dict

def itemsJson? : List Value → Option (List Json.Value)
  | [] => some []
  | v :: vs => do
    let v ← v.json?
    let vs ← itemsJson? vs
    return v :: vs

def entriesJson? : Table → Option (List (Json.PyStr × Json.Value))
  | [] => some []
  | (key, v) :: ms => do
    let v ← v.json?
    let ms ← entriesJson? ms
    return (Json.ofString key, v) :: ms

end

mutual

/-- No dictionary has a key twice. -/
def Value.distinctKeys : Value → Bool
  | .array items => itemsDistinctKeys items
  | .table entries => decide (entries.map Prod.fst).Nodup && entriesDistinctKeys entries
  | _ => true

def itemsDistinctKeys : List Value → Bool
  | [] => true
  | v :: vs => v.distinctKeys && itemsDistinctKeys vs

def entriesDistinctKeys : Table → Bool
  | [] => true
  | (_, v) :: ms => v.distinctKeys && entriesDistinctKeys ms

end

/-- `json.dumps(v, sort_keys=True)`, where it raises nothing. -/
def dumps (lim : Json.Limits) (v : Value) : Option (List Char) :=
  v.json?.bind (Json.dumpsSorted lim)

/-! ### What JSON holds is well formed -/

theorem ord_injective {c d : Char} (h : Json.ord c = Json.ord d) : c = d := by
  have hval : (Json.ord c).val = (Json.ord d).val := congrArg Fin.val h
  have hnat : c.toNat = d.toNat := hval
  rw [← Char.ofNat_toNat c, hnat, Char.ofNat_toNat]

theorem ofString_injective : Function.Injective Json.ofString := by
  intro s s' h
  exact String.toList_inj.mp (List.map_injective_iff.mpr (fun _ _ => ord_injective) h)

theorem isFloat_jsonText (x : PyFloat) : Json.isFloat x.jsonText = true := by
  rw [Json.isFloat_iff]
  cases x with
  | finite x => exact .inl x.fraction
  | infinity negative =>
    cases negative with
    | true => exact .inr (.inr (.inr rfl))
    | false => exact .inr (.inr (.inl rfl))
  | nan => exact .inr (.inl rfl)

/-- The items are JSON, one by one. -/
theorem itemsJson?_eq (items : List Value) : itemsJson? items = items.mapM Value.json? := by
  induction items with
  | nil => rfl
  | cons v vs ih => simp [itemsJson?, ih]

theorem entriesJson?_eq (entries : Table) :
    entriesJson? entries =
      entries.mapM fun m => m.2.json?.map fun j => (Json.ofString m.1, j) := by
  induction entries with
  | nil => rfl
  | cons m ms ih =>
    rw [List.mapM_cons, ← ih]
    cases hj : m.2.json? <;> simp [entriesJson?, hj]

/-- What is collected comes from an element. -/
theorem exists_of_mem_mapM {α β : Type} {f : α → Option β} {l : List α} {l' : List β}
    (h : l.mapM f = some l') {b : β} (hb : b ∈ l') : ∃ a ∈ l, f a = some b := by
  induction l generalizing l' with
  | nil =>
    obtain rfl := Option.some.inj h
    simp at hb
  | cons a l ih =>
    simp only [List.mapM_cons, Option.bind_eq_bind, Option.bind_eq_some_iff, Option.pure_def,
      Option.some.injEq] at h
    obtain ⟨b', hb', rest, hrest, rfl⟩ := h
    rcases List.mem_cons.mp hb with rfl | hb
    · exact ⟨a, List.mem_cons_self, hb'⟩
    · obtain ⟨a', ha', hfa⟩ := ih hrest hb
      exact ⟨a', List.mem_cons_of_mem a ha', hfa⟩

theorem keys_of_entriesJson? {entries : Table} {js : List (Json.PyStr × Json.Value)}
    (h : entriesJson? entries = some js) :
    js.map Prod.fst = entries.map fun m => Json.ofString m.1 := by
  induction entries generalizing js with
  | nil =>
    obtain rfl := Option.some.inj h
    rfl
  | cons m ms ih =>
    simp only [entriesJson?, Option.bind_eq_bind, Option.bind_eq_some_iff, Option.pure_def,
      Option.some.injEq] at h
    obtain ⟨j, -, rest, hrest, rfl⟩ := h
    simp [ih hrest]

theorem itemsDistinctKeys_iff {items : List Value} :
    itemsDistinctKeys items = true ↔ ∀ v ∈ items, v.distinctKeys = true := by
  induction items with
  | nil => simp [itemsDistinctKeys]
  | cons v vs ih => simp [itemsDistinctKeys, ih]

theorem entriesDistinctKeys_iff {entries : Table} :
    entriesDistinctKeys entries = true ↔ ∀ m ∈ entries, m.2.distinctKeys = true := by
  induction entries with
  | nil => simp [entriesDistinctKeys]
  | cons m ms ih => simp [entriesDistinctKeys, ih]

theorem table_distinctKeys_iff {entries : Table} :
    (Value.table entries).distinctKeys = true ↔
      (entries.map Prod.fst).Nodup ∧ ∀ m ∈ entries, m.2.distinctKeys = true := by
  simp [Value.distinctKeys, entriesDistinctKeys_iff]

theorem Table.getD_distinctKeys {entries : Table} (h : (Value.table entries).distinctKeys = true)
    (key : String) {default : Value} (hdefault : default.distinctKeys = true) :
    (Table.getD entries key default).distinctKeys = true := by
  rw [Table.getD, Table.get?]
  cases hlookup : entries.lookup key with
  | none => exact hdefault
  | some v =>
    obtain ⟨before, after, hentries, -⟩ := List.lookup_eq_some_iff.mp hlookup
    refine (table_distinctKeys_iff.mp h).2 (key, v) ?_
    rw [hentries]
    exact List.mem_append_right before List.mem_cons_self

theorem getsFrom_eq_ok_iff {v : Value} {t : Table} : getsFrom v = .ok t ↔ v = .table t := by
  cases v with
  | table _ => simp [getsFrom]
  | _ => simp [getsFrom]

/-- What is iterated over has no repeated keys either. -/
theorem distinctKeys_of_iterate {v : Value} (hv : v.distinctKeys = true) {items : List Value}
    (h : iterate v = .ok items) : ∀ x ∈ items, x.distinctKeys = true := by
  cases v with
  | array vs =>
    obtain rfl := Except.ok.inj h
    exact itemsDistinctKeys_iff.mp hv
  | table entries =>
    obtain rfl := Except.ok.inj h
    intro x hx
    obtain ⟨m, -, rfl⟩ := List.mem_map.mp hx
    rfl
  | str s =>
    obtain rfl := Except.ok.inj h
    intro x hx
    obtain ⟨c, -, rfl⟩ := List.mem_map.mp hx
    rfl
  | _ => simp [iterate] at h

/-- A value without repeated keys is well-formed JSON, if it is JSON at all. -/
theorem wellFormed_of_json? {v : Value} (hv : v.distinctKeys = true) {j : Json.Value}
    (h : v.json? = some j) : j.wellFormed = true := by
  induction v using Value.parts_induction generalizing j with
  | str s =>
    obtain rfl := Option.some.inj h
    exact decide_eq_true (Json.joined_ofString s)
  | int n =>
    obtain rfl := Option.some.inj h
    rfl
  | float x =>
    obtain rfl := Option.some.inj h
    exact isFloat_jsonText x
  | bool b =>
    obtain rfl := Option.some.inj h
    rfl
  | temporal t => cases h
  | array items ih =>
    obtain ⟨js, hjs, rfl⟩ := Option.map_eq_some_iff.mp h
    rw [Value.distinctKeys, itemsDistinctKeys_iff] at hv
    rw [Json.list_wellFormed_iff]
    intro j hj
    rw [itemsJson?_eq] at hjs
    obtain ⟨v, hmem, hvj⟩ := exists_of_mem_mapM hjs hj
    exact ih v hmem (hv v hmem) hvj
  | table entries ih =>
    obtain ⟨js, hjs, rfl⟩ := Option.map_eq_some_iff.mp h
    obtain ⟨hkeys, hparts⟩ := table_distinctKeys_iff.mp hv
    rw [Json.dict_wellFormed_iff, keys_of_entriesJson? hjs]
    refine ⟨?_, fun j hj => ?_⟩
    · -- distinct texts have distinct code points
      have hcodes := hkeys.map ofString_injective
      simpa [List.map_map, Function.comp_def] using hcodes
    · rw [entriesJson?_eq] at hjs
      obtain ⟨m, hmem, hmj⟩ := exists_of_mem_mapM hjs hj
      obtain ⟨j', hj', rfl⟩ := Option.map_eq_some_iff.mp hmj
      exact ⟨Json.joined_ofString m.1, ih m hmem (hparts m hmem) hj'⟩

end OpenHost.Toml
