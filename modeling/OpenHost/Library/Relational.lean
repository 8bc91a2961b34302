import Mathlib.Data.List.Forall2

/-!
# Tables

Rows with values of the storage classes of SQLite, the constraints of a table, and the join with a
table whose key is unique.
-/

namespace OpenHost.Relational

inductive Value where
  | null
  | integer (n : Int)
  | real (bits : UInt64)
  | text (s : String)
  | blob (bytes : List UInt8)
  deriving DecidableEq

/-- A row, by column; `NULL` for a column that the table does not have. -/
abbrev Row : Type := String → Value

/-- `a = b` in a condition. -/
def Value.eq (a b : Value) : Bool := a ≠ .null && a = b

/-- `a != b` in a condition. -/
def Value.ne (a b : Value) : Bool := a ≠ .null && b ≠ .null && a ≠ b

theorem Value.eq_iff {a b : Value} : a.eq b = true ↔ a ≠ .null ∧ a = b := by
  simp [Value.eq]

/-! ## Constraints -/

/-- A condition on one column. -/
inductive Check where
  /-- `INTEGER PRIMARY KEY` -/
  | integer (column : String)
  | oneOf (column : String) (values : List String)
  deriving DecidableEq

def Check.column : Check → String
  | .integer column | .oneOf column _ => column

def Check.holds : Check → Value → Bool
  | .integer _, .integer _ => true
  | .integer _, _ => false
  | .oneOf _ values, .text s => s ∈ values
  | .oneOf _ _, .null => true
  | .oneOf _ _, _ => false

structure Schema where
  notNull : List String
  checks : List Check
  /-- Primary keys, `UNIQUE` constraints and unique indices. -/
  unique : List (List String)

/-- Two rows that a unique key over these columns allows; `NULL` equals nothing. -/
def Apart (columns : List String) (r s : Row) : Prop :=
  ∃ c ∈ columns, r c = .null ∨ s c = .null ∨ r c ≠ s c

instance (columns : List String) (r s : Row) : Decidable (Apart columns r s) :=
  inferInstanceAs (Decidable (∃ c ∈ columns, r c = .null ∨ s c = .null ∨ r c ≠ s c))

/-- Rows stay apart where the columns of a key are kept. -/
theorem Apart.mono {u u' : List String} {r s r' s' : Row} (h : Apart u r s)
    (hkeep : ∀ c ∈ u, c ∈ u' ∧ r' c = r c ∧ s' c = s c) : Apart u' r' s' := by
  obtain ⟨c, hc, hapart⟩ := h
  obtain ⟨hc', hr, hs⟩ := hkeep c hc
  exact ⟨c, hc', by rwa [hr, hs]⟩

/-- A row that the constraints of its columns allow. -/
def Schema.Allows (schema : Schema) (r : Row) : Prop :=
  (∀ c ∈ schema.notNull, r c ≠ .null) ∧ ∀ check ∈ schema.checks, check.holds (r check.column) = true

instance (schema : Schema) (r : Row) : Decidable (schema.Allows r) :=
  inferInstanceAs (Decidable ((∀ c ∈ schema.notNull, r c ≠ .null) ∧
    ∀ check ∈ schema.checks, check.holds (r check.column) = true))

/-- The rows of a table meet its constraints. -/
def Schema.Holds (schema : Schema) (rows : List Row) : Prop :=
  (∀ r ∈ rows, schema.Allows r) ∧ ∀ u ∈ schema.unique, rows.Pairwise (Apart u)

instance (schema : Schema) (rows : List Row) : Decidable (schema.Holds rows) :=
  inferInstanceAs (Decidable
    ((∀ r ∈ rows, schema.Allows r) ∧ ∀ u ∈ schema.unique, rows.Pairwise (Apart u)))

/-! ## `INSERT` -/

/-- What a column is set to by a list of columns and a list of as many sources. -/
def sourceOf {α : Type} (columns : List String) (sources : List α) (c : String) : Option α :=
  ((columns.zip sources).find? fun p => p.1 = c).map Prod.snd

/-- The row that `INSERT INTO t (columns)` makes of these values. -/
def insertRow (columns : List String) (values : List Value) : Row := fun c =>
  (sourceOf columns values c).getD .null

theorem sourceOf_map {α β : Type} (columns : List String) (sources : List α) (f : α → β)
    (c : String) : sourceOf columns (sources.map f) c = (sourceOf columns sources c).map f := by
  rw [sourceOf, sourceOf, List.zip_map_right, List.find?_map, Option.map_map, Option.map_map]
  rfl

theorem insertRow_map {α : Type} (columns : List String) (sources : List α) (f : α → Value)
    (c : String) :
    insertRow columns (sources.map f) c = ((sourceOf columns sources c).map f).getD .null := by
  rw [← sourceOf_map]
  rfl

/-! ## Joins -/

section Joins

variable {rows : List Row} {column : String}

/-- The rows of a unique column with this value are one row, or none. -/
theorem filter_eq_of_unique (h : rows.Pairwise fun a b => a column ≠ b column)
    {a : Row} (ha : a ∈ rows) (hnull : a column ≠ .null) :
    (rows.filter fun b => (b column).eq (a column)) = [a] := by
  induction rows with
  | nil => cases ha
  | cons b rows ih =>
    obtain ⟨hb, hrest⟩ := List.pairwise_cons.mp h
    rcases List.mem_cons.mp ha with rfl | ha
    · have hnone : (rows.filter fun b => (b column).eq (a column)) = [] := by
        rw [List.filter_eq_nil_iff]
        intro c hc heq
        exact hb c hc (Value.eq_iff.mp heq).2.symm
      have hself : (a column).eq (a column) = true := Value.eq_iff.mpr ⟨hnull, rfl⟩
      rw [List.filter_cons, if_pos hself, hnone]
    · have hother : ¬ (b column).eq (a column) = true :=
        fun heq => hb a ha (Value.eq_iff.mp heq).2
      rw [List.filter_cons, if_neg hother, ih hrest ha]

/-- Rows that make one row each, or none. -/
theorem forall₂_flatMap {R : Row → Row → Prop} {p : Row → Bool} {f : Row → List Row}
    (hnone : ∀ d ∈ rows, p d = false → f d = [])
    (hone : ∀ d ∈ rows, p d = true → ∃ d', f d = [d'] ∧ R d d') :
    List.Forall₂ R (rows.filter p) (rows.flatMap f) := by
  induction rows with
  | nil => exact .nil
  | cons d rows ih =>
    have hrest := ih (fun d hd => hnone d (List.mem_cons_of_mem _ hd))
      fun d hd => hone d (List.mem_cons_of_mem _ hd)
    rw [List.flatMap_cons]
    cases hp : p d with
    | false =>
      rw [List.filter_cons_of_neg (by simp [hp]), hnone d List.mem_cons_self hp]
      exact hrest
    | true =>
      obtain ⟨d', hd', hR⟩ := hone d List.mem_cons_self hp
      rw [List.filter_cons_of_pos hp, hd']
      exact .cons hR hrest

theorem exists_of_forall₂ {R : Row → Row → Prop} {rows' : List Row} (h : List.Forall₂ R rows rows')
    {b : Row} (hb : b ∈ rows') : ∃ a ∈ rows, R a b := by
  induction h with
  | nil => cases hb
  | cons hR _ ih =>
    rcases List.mem_cons.mp hb with rfl | hb
    · exact ⟨_, List.mem_cons_self, hR⟩
    · obtain ⟨a, ha, hab⟩ := ih hb
      exact ⟨a, List.mem_cons_of_mem _ ha, hab⟩

/-- What holds of any two rows goes over to related rows. -/
theorem pairwise_of_forall₂ {R S S' : Row → Row → Prop} {rows' : List Row}
    (h : List.Forall₂ R rows rows') (hS : rows.Pairwise S)
    (htransfer : ∀ a b a' b', R a a' → R b b' → S a b → S' a' b') : rows'.Pairwise S' := by
  induction h with
  | nil => exact .nil
  | cons hR hrest ih =>
    obtain ⟨hfirst, hS⟩ := List.pairwise_cons.mp hS
    refine List.pairwise_cons.mpr ⟨fun b' hb' => ?_, ih hS⟩
    obtain ⟨b, hb, hRb⟩ := exists_of_forall₂ hrest hb'
    exact htransfer _ _ _ _ hR hRb (hfirst b hb)

end Joins

end OpenHost.Relational
