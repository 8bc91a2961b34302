import OpenHost.Library.TomlDocument

/-!
# Dictionaries without a key

Taking a key out of a dictionary, or out of one of its tables, and what the statements of a document
change in a dictionary: each change is one of the value at a single key, so it commutes with taking
out another one.
-/

namespace OpenHost.Toml

/-! ## Entries of a dictionary -/

/-- The dictionary without a key. -/
def Table.without (key : String) (t : Table) : Table := t.filter (·.1 ≠ key)

/-- The dictionary in the value without a key. -/
def Value.without (key : String) : Value → Value
  | .table t => .table (Table.without key t)
  | v => v

/-- The dictionary without a key of one of its tables. -/
def Table.withoutIn (top key : String) (t : Table) : Table := t.modify top (Value.without key)

section

variable {t : Table} {k k' : String} {v : Value} {f g : Value → Value}

theorem lookup_cons (e : String × Value) (t : Table) (k : String) :
    List.lookup k (e :: t) = if k = e.1 then some e.2 else t.lookup k := by
  rw [List.lookup_cons]
  by_cases h : k = e.1
  · simp [h]
  · rw [beq_eq_false_iff_ne.mpr h, if_neg h]

theorem lookup_append_singleton (t : Table) (k k' : String) (v : Value) :
    (t ++ [(k, v)]).lookup k' = (t.lookup k').or (if k' = k then some v else none) := by
  induction t with
  | nil => simp [lookup_cons]
  | cons e t ih =>
    rw [List.cons_append, lookup_cons, lookup_cons, ih]
    split <;> rfl

theorem lookup_modify (t : Table) (k k' : String) (f : Value → Value) :
    (t.modify k f).lookup k' = if k' = k then (t.lookup k').map f else t.lookup k' := by
  induction t with
  | nil => simp [Table.modify]
  | cons e t ih =>
    rw [Table.modify]
    by_cases hk : e.1 = k
    · rw [if_pos hk, lookup_cons, lookup_cons]
      by_cases hk' : k' = k <;> simp [hk, hk']
    · rw [if_neg hk, lookup_cons, lookup_cons, ih]
      by_cases hk' : k' = e.1
      · simp [hk', hk]
      · simp [hk']

theorem modify_modify (t : Table) (k : String) (f g : Value → Value) :
    (t.modify k f).modify k g = t.modify k fun v => g (f v) := by
  induction t with
  | nil => rfl
  | cons e t ih =>
    by_cases hk : e.1 = k
    · simp [Table.modify, hk]
    · simp [Table.modify, hk, ih]

theorem modify_comm (h : k ≠ k') (t : Table) (f g : Value → Value) :
    (t.modify k f).modify k' g = (t.modify k' g).modify k f := by
  induction t with
  | nil => rfl
  | cons e t ih =>
    by_cases hk : e.1 = k
    · simp [Table.modify, hk, h]
    · by_cases hk' : e.1 = k'
      · simp [Table.modify, hk', h.symm]
      · simp [Table.modify, hk, hk', ih]

theorem modify_congr (h : ∀ v, t.lookup k = some v → f v = g v) : t.modify k f = t.modify k g := by
  induction t with
  | nil => rfl
  | cons e t ih =>
    rw [Table.modify, Table.modify]
    by_cases hk : e.1 = k
    · rw [if_pos hk, if_pos hk, h e.2 (by rw [lookup_cons, if_pos hk.symm])]
    · rw [if_neg hk, if_neg hk, ih fun v hv => h v (by rwa [lookup_cons, if_neg (Ne.symm hk)])]

theorem modify_id (t : Table) (k : String) : (t.modify k fun v => v) = t := by
  induction t with
  | nil => rfl
  | cons e t ih => rw [Table.modify, ih, ite_self]

theorem modify_eq_self (h : ∀ v, t.lookup k = some v → f v = v) : t.modify k f = t :=
  (modify_congr h).trans (modify_id t k)

theorem modify_append_of_ne (h : k ≠ k') (t : Table) (v : Value) (f : Value → Value) :
    Table.modify k' f (t ++ [(k, v)]) = t.modify k' f ++ [(k, v)] := by
  induction t with
  | nil => simp [Table.modify, h]
  | cons e t ih =>
    rw [List.cons_append, Table.modify, Table.modify]
    split
    · rfl
    · rw [ih]
      rfl

theorem lookup_without_of_ne (h : k' ≠ k) (t : Table) :
    (t.without k).lookup k' = t.lookup k' := by
  induction t with
  | nil => rfl
  | cons e t ih =>
    by_cases hk : e.1 = k
    · have hne : k' ≠ e.1 := fun h' => h (h'.trans hk)
      rw [Table.without, List.filter_cons, if_neg (by simp [hk]), lookup_cons, if_neg hne]
      exact ih
    · rw [Table.without, List.filter_cons, if_pos (by simp [hk]), lookup_cons, lookup_cons]
      rw [← Table.without, ih]

theorem without_modify_of_ne (h : k' ≠ k) (t : Table) (f : Value → Value) :
    (t.modify k' f).without k = (t.without k).modify k' f := by
  induction t with
  | nil => rfl
  | cons e t ih =>
    rw [Table.modify]
    by_cases hk' : e.1 = k'
    · simp [Table.without, hk', h, Table.modify]
    · rw [if_neg hk']
      by_cases hk : e.1 = k
      · simpa [Table.without, hk] using ih
      · simpa [Table.without, hk, Table.modify, hk'] using ih

theorem without_append_of_ne (h : k' ≠ k) (t : Table) (v : Value) :
    Table.without k (t ++ [(k', v)]) = t.without k ++ [(k', v)] := by
  simp [Table.without, List.filter_append, h]

theorem without_append_self (h : t.lookup k = none) (v : Value) :
    Table.without k (t ++ [(k, v)]) = t := by
  have hall : ∀ e ∈ t, e.1 ≠ k := by
    induction t with
    | nil => simp
    | cons e t ih =>
      rw [lookup_cons] at h
      split at h
      · cases h
      · next hk => exact List.forall_mem_cons.mpr ⟨Ne.symm hk, ih h⟩
  simp only [Table.without, List.filter_append, List.filter_cons, List.filter_nil, ne_eq,
    not_true_eq_false, decide_false, Bool.false_eq_true, if_false, List.append_nil]
  exact List.filter_eq_self.mpr fun e he => decide_eq_true (hall e he)

/-! ### Changes at one key -/

/-- `t[key] = v` -/
def Table.put (t : Table) (key : String) (v : Value) : Table :=
  if (t.lookup key).isNone then t ++ [(key, v)] else t.set key v

theorem lookup_put_self (t : Table) (k : String) (v : Value) : (t.put k v).lookup k = some v := by
  cases h : t.lookup k with
  | none => simp [Table.put, h, lookup_append_singleton]
  | some w => simp [Table.put, h, Table.set, lookup_modify]

theorem lookup_put_of_ne (h : k' ≠ k) (t : Table) (v : Value) :
    (t.put k v).lookup k' = t.lookup k' := by
  cases hk : t.lookup k with
  | none => simp [Table.put, hk, lookup_append_singleton, h]
  | some w => simp [Table.put, hk, Table.set, lookup_modify, h]

theorem without_put_of_ne (h : k' ≠ k) (t : Table) (v : Value) :
    (t.put k' v).without k = (t.without k).put k' v := by
  rw [Table.put, Table.put, lookup_without_of_ne h]
  split
  · exact without_append_of_ne h t v
  · exact without_modify_of_ne h t _

theorem lookup_withoutIn_of_ne {top : String} (h : k' ≠ top) (t : Table) :
    (t.withoutIn top k).lookup k' = t.lookup k' := by
  rw [Table.withoutIn, lookup_modify, if_neg h]

theorem withoutIn_put_of_ne {top : String} (h : k' ≠ top) (t : Table) (v : Value) :
    (t.put k' v).withoutIn top k = (t.withoutIn top k).put k' v := by
  rw [Table.put, Table.put, lookup_withoutIn_of_ne h]
  split
  · exact modify_append_of_ne h t v _
  · exact modify_comm h t _ _

/-- The change is one of the value at a key, and depends on nothing but that value. -/
def ActsAt (x : String) (g : Table → Option Table) (u : Option Value → Option Value) : Prop :=
  ∀ t, g t = (u (t.lookup x)).map (t.put x)

namespace ActsAt

variable {x top : String} {g : Table → Option Table} {u : Option Value → Option Value} {t' : Table}

theorem without (hg : ActsAt x g u) (h : x ≠ k) (t : Table) :
    g (t.without k) = (g t).map (Table.without k) := by
  rw [hg, hg, lookup_without_of_ne h, Option.map_map]
  exact congrArg (Option.map · _) (funext fun v => (without_put_of_ne h t v).symm)

theorem withoutIn (hg : ActsAt x g u) (h : x ≠ top) (t : Table) :
    g (t.withoutIn top k) = (g t).map (Table.withoutIn top k) := by
  rw [hg, hg, lookup_withoutIn_of_ne h, Option.map_map]
  exact congrArg (Option.map · _) (funext fun v => (withoutIn_put_of_ne h t v).symm)

theorem lookup_of_ne (hg : ActsAt x g u) (h : g t = some t') (hk : k ≠ x) :
    t'.lookup k = t.lookup k := by
  rw [hg] at h
  obtain ⟨v, -, rfl⟩ := Option.map_eq_some_iff.mp h
  exact lookup_put_of_ne hk t v

theorem lookup_self (hg : ActsAt x g u) (h : g t = some t') : t'.lookup x = u (t.lookup x) := by
  rw [hg] at h
  obtain ⟨v, hv, rfl⟩ := Option.map_eq_some_iff.mp h
  rw [hv, lookup_put_self]

theorem isSome_lookup (hg : ActsAt x g u) (h : g t = some t') : (t'.lookup x).isSome = true := by
  rw [hg] at h
  obtain ⟨v, -, rfl⟩ := Option.map_eq_some_iff.mp h
  rw [lookup_put_self]
  rfl

end ActsAt

/-- What becomes of a value when a new one is to stand in its place. -/
def insertAt (v : Value) : Option Value → Option Value
  | none => some v
  | some _ => none

/-- What becomes of a value when a dictionary is appended to it. -/
def appendAt : Option Value → Option Value
  | none => some (.array [.table []])
  | some (.array items) => some (.array (items ++ [.table []]))
  | some _ => none

/-- What becomes of a value when something is changed in it. -/
def nestAt (accessLists : Bool) (ks : List String) (f : Table → Option Table) :
    Option Value → Option Value
  | none => (nest accessLists ks f []).map .table
  | some (.table inner) => (nest accessLists ks f inner).map .table
  | some (.array items) =>
    match accessLists, items.getLast? with
    | true, some (.table inner) =>
      (nest accessLists ks f inner).map fun inner => .array (items.dropLast ++ [.table inner])
    | _, _ => none
  | some _ => none

theorem insertNew_actsAt (stem : String) (v : Value) : ActsAt stem (insertNew stem v) (insertAt v) := by
  intro t
  cases h : t.lookup stem with
  | none => simp [insertNew, insertAt, Table.put, h]
  | some w => simp [insertNew, insertAt, h]

theorem appendTable_actsAt (stem : String) : ActsAt stem (appendTable stem) appendAt := by
  intro t
  rw [appendTable]
  split
  · next h => simp [h, appendAt, Table.put]
  · next h => simp [h, appendAt, Table.put]
  · next w hne h =>
    rw [h]
    cases w with
    | array items => exact (hne items rfl).elim
    | _ => rfl

theorem nest_actsAt (accessLists : Bool) (k : String) (ks : List String)
    (f : Table → Option Table) : ActsAt k (nest accessLists (k :: ks) f) (nestAt accessLists ks f) := by
  intro t
  cases h : t.lookup k with
  | none => simp [nest, nestAt, h, Table.put, Function.comp_def]
  | some v =>
    have hput : t.put k = t.set k := by
      funext w
      rw [Table.put, h]
      rfl
    rw [hput, nest, h]
    cases v with
    | table inner => simp [nestAt, Function.comp_def]
    | array items =>
      cases accessLists with
      | false => rfl
      | true =>
        dsimp only [nestAt]
        cases items.getLast? with
        | none => rfl
        | some last =>
          cases last with
          | table inner => simp [Function.comp_def]
          | _ => rfl
    | _ => rfl

/-- Changes one below the other. -/
theorem nest_append (accessLists : Bool) (ks ks' : List String) (f : Table → Option Table) (t : Table) :
    nest accessLists (ks ++ ks') f t = nest accessLists ks (nest accessLists ks' f) t := by
  induction ks generalizing t with
  | nil => rfl
  | cons k ks ih =>
    rw [List.cons_append, nest, nest]
    simp only [ih]

/-! ### What stays the same -/

/-- The dictionaries say the same, but these keys of one of their tables, which is empty where it is
missing, may have gone. -/
def SameBut (top : String) (keys : List String) (t t' : Table) : Prop :=
  (∀ x, x ≠ top → t'.lookup x = t.lookup x) ∧
    ∃ inner inner', t.getD top (.table []) = .table inner ∧ t'.getD top (.table []) = .table inner' ∧
      ∀ x, inner'.lookup x = inner.lookup x ∨ x ∈ keys ∧ inner'.lookup x = none

theorem getD_withoutIn {top : String} {inner : Table} (h : t.getD top (.table []) = .table inner) :
    (t.withoutIn top k).getD top (.table []) = .table (Table.without k inner) := by
  rw [Table.getD, Table.get?] at h ⊢
  rw [Table.withoutIn, lookup_modify, if_pos rfl]
  cases hv : t.lookup top with
  | none =>
    rw [hv] at h
    cases h
    rfl
  | some v =>
    rw [hv] at h
    obtain rfl : v = .table inner := h
    rfl

theorem lookup_without_self (t : Table) (k : String) : (t.without k).lookup k = none := by
  rw [List.lookup_eq_none_iff]
  intro e he
  have hne : e.1 ≠ k := of_decide_eq_true (List.mem_filter.mp he).2
  exact bne_iff_ne.mpr hne.symm

theorem sameBut_foldr {top : String} {keys ks : List String} {inner : Table}
    (hks : ∀ k ∈ ks, k ∈ keys) (h : t.getD top (.table []) = .table inner) :
    SameBut top keys t (ks.foldr (Table.withoutIn top) t) := by
  induction ks with
  | nil => exact ⟨fun _ _ => rfl, inner, inner, h, h, fun _ => .inl rfl⟩
  | cons k ks ih =>
    obtain ⟨hk, hks⟩ := List.forall_mem_cons.mp hks
    obtain ⟨hother, inner, inner', hinner, hinner', hin⟩ := ih hks
    rw [List.foldr_cons]
    refine ⟨fun x hx => ?_, inner, Table.without k inner', hinner, getD_withoutIn hinner',
      fun x => ?_⟩
    · rw [lookup_withoutIn_of_ne hx, hother x hx]
    · by_cases hxk : x = k
      · obtain rfl := hxk
        exact .inr ⟨hk, lookup_without_self inner' x⟩
      · rw [lookup_without_of_ne hxk]
        exact hin x

end

end OpenHost.Toml
