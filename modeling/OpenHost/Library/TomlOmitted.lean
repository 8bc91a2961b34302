import OpenHost.Library.TomlErase

/-!
# Leaving out statements of a document

A statement that gives a key of a top-level table its value can be left out: the other statements are
carried out as before, and the dictionary is the same but for that key.  No statement after it can
have looked into the value: it would have been refused because the value is frozen, or because it is
not a container.
-/

namespace OpenHost.Toml

/-! ## What a statement does -/

theorem typeName_of_nestAt {accessLists : Bool} {ks : List String} {f : Table → Option Table}
    {v v' : Value} (h : nestAt accessLists ks f (some v) = some v') : v'.typeName = v.typeName := by
  cases v with
  | table inner =>
    obtain ⟨i, -, rfl⟩ := Option.map_eq_some_iff.mp h
    rfl
  | array items =>
    dsimp only [nestAt] at h
    split at h
    · obtain ⟨i, -, rfl⟩ := Option.map_eq_some_iff.mp h
      rfl
    · cases h
  | _ => cases h

theorem typeName_eq_dict_iff {v : Value} : v.typeName = "dict" ↔ ∃ t, v = .table t := by
  cases v with
  | temporal t => cases t <;> simp [Value.typeName]
  | _ => simp [Value.typeName]

namespace Statement

/-- The key that the statement is about. -/
def key : Statement → Key
  | .keyValue key _ | .table key | .element key => key

/-- What the statement changes in the dictionary that the last part of its key belongs to. -/
def edit : Statement → Table → Option Table
  | .keyValue key v => insertNew key.stem v
  | .table key => nest true [key.stem] some
  | .element key => appendTable key.stem

/-- What becomes of the value of the last part of the key. -/
def editAt : Statement → Option Value → Option Value
  | .keyValue _ v => insertAt v
  | .table _ => nestAt true [] some
  | .element _ => appendAt

/-- What is there keeps its type. -/
theorem typeName_of_editAt {s : Statement} {v v' : Value} (h : s.editAt (some v) = some v') :
    v'.typeName = v.typeName := by
  cases s with
  | keyValue key w => cases h
  | table key => exact typeName_of_nestAt h
  | element key =>
    cases v with
    | array items =>
      obtain rfl := Option.some.inj h
      rfl
    | _ => cases h

theorem edit_actsAt (s : Statement) : ActsAt s.key.stem s.edit s.editAt :=
  match s with
  | .keyValue key v => insertNew_actsAt key.stem v
  | .table key => nest_actsAt true key.stem [] some
  | .element key => appendTable_actsAt key.stem

end Statement

/-- What the statement changes, where its key says, is one of the values there. -/
theorem exists_actsAt (ks : List String) (s : Statement) :
    ∃ x rest u, ks ++ [s.key.stem] = x :: rest ∧ ActsAt x (nest true ks s.edit) u ∧
      ∀ v v', u (some v) = some v' → v'.typeName = v.typeName := by
  cases ks with
  | nil => exact ⟨_, _, _, rfl, s.edit_actsAt, fun _ _ h => Statement.typeName_of_editAt h⟩
  | cons x ks =>
    exact ⟨x, _, _, rfl, nest_actsAt true x ks s.edit, fun _ _ h => typeName_of_nestAt h⟩

namespace Output

variable {o o₁ o₂ o' : Output} {s : Statement} {top k : String}

/-- Where the dictionary is that the last part of the statement's key belongs to. -/
def parentsOf (o : Output) : Statement → List String
  | .keyValue key _ => o.header.path ++ key.parents
  | .table key | .element key => key.parents

/-- Where the value is that the statement is about. -/
def touched (o : Output) (s : Statement) : List String := o.parentsOf s ++ [s.key.stem]

/-- The statement is about a namespace that must not be opened again. -/
def refused (o : Output) : Statement → Bool
  | .keyValue key _ =>
    (o.opened key).any (isMarked o.marks · .explicitNest) ||
      isMarked o.marks (o.header.path ++ key.parents) .frozen
  | .table key =>
    isMarked o.finalizePending.marks key.path .explicitNest ||
      isMarked o.finalizePending.marks key.path .frozen
  | .element key => isMarked o.finalizePending.marks key.path .frozen

/-- The marks after the statement. -/
def marksAfter (o : Output) : Statement → List Mark
  | .keyValue key v =>
    if v.isContainer then ⟨o.header.path ++ key.path, .frozen, true⟩ :: o.marks else o.marks
  | .table key => ⟨key.path, .explicitNest, false⟩ :: o.finalizePending.marks
  | .element key =>
    ⟨key.path, .explicitNest, false⟩ ::
      o.finalizePending.marks.filter fun m => !key.path.isPrefixOf m.key

/-- The marks that are still to be made after the statement. -/
def pendingAfter (o : Output) : Statement → List (List String)
  | .keyValue key _ => o.opened key ++ o.pending
  | .table _ | .element _ => []

/-- A statement that is not refused makes its change where its key says. -/
theorem apply_eq (o : Output) (s : Statement) :
    o.apply s = if o.refused s then none else
      (nest true (o.parentsOf s) s.edit o.data).map fun data =>
        ⟨data, o.marksAfter s, o.pendingAfter s, o.header.after s⟩ := by
  cases s with
  | keyValue key v => rfl
  | table key =>
    have hnest : nest true key.path some o.data =
        nest true key.parents (nest true [key.stem] some) o.data := nest_append ..
    rw [apply, table, hnest]
    rfl
  | element key => rfl

theorem apply_eq_some_iff :
    o.apply s = some o₂ ↔ o.refused s = false ∧
      ∃ data, nest true (o.parentsOf s) s.edit o.data = some data ∧
        o₂ = ⟨data, o.marksAfter s, o.pendingAfter s, o.header.after s⟩ := by
  rw [apply_eq]
  cases o.refused s with
  | true => simp
  | false => simp [eq_comm]

/-! ## The key is not touched again -/

/-- The top-level table has the key, and a mark on it if its value is a container. -/
structure Sealed (top k : String) (o : Output) : Prop where
  has : ∃ inner v, o.data.lookup top = some (.table inner) ∧ inner.lookup k = some v ∧
    (v.isContainer = true → (⟨[top, k], .frozen, true⟩ : Mark) ∈ o.marks)

theorem isMarked_of_mem {marks : List Mark} {q : List String}
    (h : (⟨[top, k], .frozen, true⟩ : Mark) ∈ marks) (hq : [top, k] <+: q) :
    isMarked marks q .frozen = true := by
  have hne : q ≠ [] := fun h => by simp [h] at hq
  simp only [isMarked, Bool.and_eq_true, Bool.not_eq_true', List.isEmpty_eq_false_iff,
    List.any_eq_true]
  exact ⟨hne, _, h, by simp [hq]⟩

theorem mem_finalizePending {m : Mark} (h : m ∈ o.marks) : m ∈ o.finalizePending.marks :=
  List.mem_append_right _ h

/-- A statement about a frozen key, or about what is below it, is refused, if it does not give the
key itself its value. -/
theorem refused_of_mem (h : (⟨[top, k], .frozen, true⟩ : Mark) ∈ o.marks)
    (hs : [top, k] <+: o.touched s)
    (hparents : ∀ key v, s = .keyValue key v → [top, k] <+: o.parentsOf s) :
    o.refused s = true := by
  cases s with
  | keyValue key v =>
    have hfrozen : isMarked o.marks (o.header.path ++ key.parents) .frozen = true :=
      isMarked_of_mem h (hparents key v rfl)
    rw [refused, hfrozen, Bool.or_true]
  | table key =>
    have hfrozen : isMarked o.finalizePending.marks key.path .frozen = true :=
      isMarked_of_mem (mem_finalizePending h) hs
    rw [refused, hfrozen, Bool.or_true]
  | element key => exact isMarked_of_mem (mem_finalizePending h) hs

/-- No statement changes a value that is not a container. -/
theorem edit_eq_none {t : Table} {v : Value} (h : t.lookup s.key.stem = some v)
    (hv : v.isContainer = false) : s.edit t = none := by
  rw [s.edit_actsAt t, h]
  cases s with
  | keyValue key w => rfl
  | table key => cases v <;> first | rfl | cases hv
  | element key => cases v <;> first | rfl | cases hv

theorem nest_eq_none {t : Table} {v : Value} {ks : List String} {f : Table → Option Table}
    (h : t.lookup k = some v) (hv : v.isContainer = false) : nest true (k :: ks) f t = none := by
  rw [nest_actsAt true k ks f t, h]
  cases v <;> first | rfl | cases hv

theorem nest_cons_of_table {t inner : Table} {ks : List String} {f : Table → Option Table}
    (h : t.lookup top = some (.table inner)) :
    nest true (top :: ks) f t = (nest true ks f inner).map fun i => t.set top (.table i) := by
  rw [nest, h]

theorem not_touched (hsealed : Sealed top k o) (h : o.apply s = some o₂) :
    ¬ [top, k] <+: o.touched s := by
  obtain ⟨inner, v, htop, hk, hmark⟩ := hsealed.has
  obtain ⟨hrefused, data, hdata, -⟩ := apply_eq_some_iff.mp h
  intro htouched
  -- either the last part of the statement's key is the key, or it is below it
  have hcases : (o.parentsOf s = [top] ∧ s.key.stem = k) ∨
      ∃ ks, o.parentsOf s = top :: k :: ks := by
    rw [touched] at htouched
    match hp : o.parentsOf s with
    | [] => simp [hp] at htouched
    | [x] =>
      simp only [hp, List.cons_append, List.nil_append, List.cons_prefix_cons] at htouched
      exact .inl ⟨by rw [htouched.1], htouched.2.1.symm⟩
    | x :: y :: ks =>
      simp only [hp, List.cons_append, List.cons_prefix_cons] at htouched
      exact .inr ⟨ks, by rw [htouched.1, htouched.2.1]⟩
  cases hv : v.isContainer with
  | false =>
    obtain ⟨hp, hstem⟩ | ⟨ks, hp⟩ := hcases
    · rw [hp, nest_cons_of_table htop, nest, edit_eq_none (hstem ▸ hk) hv] at hdata
      cases hdata
    · rw [hp, nest_cons_of_table htop, nest_eq_none hk hv] at hdata
      cases hdata
  | true =>
    obtain ⟨hp, hstem⟩ | ⟨ks, hp⟩ := hcases
    · cases s with
      | keyValue key w =>
        -- the key has a value already
        rw [hp, nest_cons_of_table htop, nest, Statement.edit_actsAt, hstem, hk] at hdata
        cases hdata
      | table key =>
        rw [refused_of_mem (hmark hv) htouched (fun _ _ h => by cases h)] at hrefused
        cases hrefused
      | element key =>
        rw [refused_of_mem (hmark hv) htouched (fun _ _ h => by cases h)] at hrefused
        cases hrefused
    · rw [refused_of_mem (hmark hv) htouched (fun _ _ _ => hp ▸ List.prefix_append [top, k] ks)]
        at hrefused
      cases hrefused

/-! ### The other keys -/

theorem set_withoutIn (t i : Table) (top k : String) :
    (t.set top (.table i)).withoutIn top k = (t.withoutIn top k).set top (.table (i.without k)) := by
  rw [Table.set, Table.set, Table.withoutIn, Table.withoutIn, modify_modify, modify_modify]
  rfl

/-- A change of another key is made as well without the key, and leaves it. -/
theorem nest_without {ks : List String} {t t' : Table} (hne : ¬ [k] <+: ks ++ [s.key.stem])
    (h : nest true ks s.edit t = some t') :
    nest true ks s.edit (t.without k) = some (t'.without k) ∧ t'.lookup k = t.lookup k := by
  obtain ⟨x, rest, u, hpath, hacts, -⟩ := exists_actsAt ks s
  have hx : x ≠ k := fun hx => hne (by simp [hpath, hx])
  rw [hacts.without hx, h]
  exact ⟨rfl, hacts.lookup_of_ne h hx.symm⟩

/-- The same with the key one level up. -/
theorem nest_withoutIn {ks : List String} {t t' inner : Table}
    (htop : t.lookup top = some (.table inner)) (hne : ¬ [top, k] <+: ks ++ [s.key.stem])
    (h : nest true ks s.edit t = some t') :
    nest true ks s.edit (t.withoutIn top k) = some (t'.withoutIn top k) ∧
      ∃ inner', t'.lookup top = some (.table inner') ∧ inner'.lookup k = inner.lookup k := by
  obtain ⟨x, rest, u, hpath, hacts, -⟩ := exists_actsAt ks s
  have htop' : (t.withoutIn top k).lookup top = some (.table (inner.without k)) := by
    rw [Table.withoutIn, lookup_modify, if_pos rfl, htop]
    rfl
  by_cases hx : x = top
  · obtain rfl := hx
    cases ks with
    | nil =>
      -- a table is opened that is there
      obtain rfl := (List.cons.inj hpath).1
      cases s with
      | keyValue key v =>
        rw [nest, Statement.edit_actsAt, htop] at h
        cases h
      | element key =>
        rw [nest, Statement.edit_actsAt, htop] at h
        cases h
      | table key =>
        have hopen : ∀ {t i : Table}, t.lookup key.stem = some (.table i) →
            nest true [] (Statement.edit (.table key)) t = some (t.set key.stem (.table i)) := by
          intro t i ht
          simp [nest, Statement.edit, ht]
        obtain rfl := Option.some.inj ((hopen htop).symm.trans h)
        refine ⟨?_, inner, ?_, rfl⟩
        · exact (hopen htop').trans (congrArg some (set_withoutIn ..).symm)
        · have hthere : t.lookup key.stem = some (.table inner) := htop
          show (t.set key.stem (.table inner)).lookup key.stem = _
          rw [Table.set, lookup_modify, if_pos rfl, hthere]
          rfl
    | cons y ks =>
      obtain rfl := (List.cons.inj hpath).1
      rw [nest_cons_of_table htop] at h
      obtain ⟨inner', hinner, rfl⟩ := Option.map_eq_some_iff.mp h
      have hne' : ¬ [k] <+: ks ++ [s.key.stem] := fun hk =>
        hne (List.cons_prefix_cons.mpr ⟨rfl, hk⟩)
      obtain ⟨hwithout, hk⟩ := nest_without hne' hinner
      refine ⟨?_, inner', ?_, hk⟩
      · rw [nest_cons_of_table htop', hwithout, set_withoutIn]
        rfl
      · rw [Table.set, lookup_modify, if_pos rfl, htop]
        rfl
  · rw [hacts.withoutIn hx, h]
    exact ⟨rfl, inner, (hacts.lookup_of_ne h (Ne.symm hx)).trans htop, rfl⟩

/-! ### The marks -/

/-- A mark that is not on the key, nor below it. -/
def isAway (top k : String) (m : Mark) : Bool := !List.isPrefixOf [top, k] m.key

/-- The second reader has the same state, but for the key and for marks on it. -/
structure Without (top k : String) (o o' : Output) : Prop where
  data : o'.data = o.data.withoutIn top k
  marks : o'.marks.filter (isAway top k) = o.marks.filter (isAway top k)
  pending : o'.pending = o.pending
  header : o'.header = o.header

theorem isMarked_filter (marks : List Mark) {q : List String} (hq : ¬ [top, k] <+: q) (flag : Flag) :
    isMarked (marks.filter (isAway top k)) q flag = isMarked marks q flag := by
  rw [isMarked, isMarked, List.any_filter]
  congr 2
  funext m
  cases hm : isAway top k m with
  | true => rw [Bool.true_and]
  | false =>
    have habove : [top, k] <+: m.key := by simpa [isAway] using hm
    have hkey : m.key ≠ q := fun h => hq (h ▸ habove)
    have hbelow : m.key.isPrefixOf q = false :=
      Bool.eq_false_iff.mpr fun h => hq (habove.trans (List.isPrefixOf_iff_prefix.mp h))
    simp [hkey, hbelow]

theorem isMarked_congr {marks marks' : List Mark} {q : List String} {flag : Flag}
    (h : marks'.filter (isAway top k) = marks.filter (isAway top k)) (hq : ¬ [top, k] <+: q) :
    isMarked marks' q flag = isMarked marks q flag := by
  rw [← isMarked_filter marks' hq, h, isMarked_filter marks hq]

theorem Without.finalizePending (h : Without top k o o') :
    o'.finalizePending.marks.filter (isAway top k) =
      o.finalizePending.marks.filter (isAway top k) := by
  simp only [Output.finalizePending, List.filter_append, h.marks, h.pending]

/-- The statement is refused in the one state if it is in the other. -/
theorem Without.refused (h : Without top k o o') (hs : ¬ [top, k] <+: o.touched s) :
    o'.refused s = o.refused s := by
  cases s with
  | keyValue key v =>
    have hparents : ¬ [top, k] <+: o.header.path ++ key.parents := fun hk =>
      hs (hk.trans (List.prefix_append _ _))
    have hopened : o'.opened key = o.opened key := by rw [opened, opened, h.header]
    rw [Output.refused, Output.refused, hopened, h.header, isMarked_congr h.marks hparents]
    congr 1
    rw [opened, List.any_map, List.any_map]
    apply List.any_congr rfl
    intro i
    -- a namespace that the dotted key opens is above the key
    apply isMarked_congr h.marks
    intro hk
    apply hparents
    exact hk.trans ((List.prefix_append_right_inj _).mpr (List.take_prefix _ _))
  | table key =>
    have hkey : ¬ [top, k] <+: key.path := hs
    rw [Output.refused, Output.refused, isMarked_congr h.finalizePending hkey,
      isMarked_congr h.finalizePending hkey]
  | element key => exact isMarked_congr h.finalizePending hs

theorem Without.marksAfter (h : Without top k o o') (s : Statement) :
    (o'.marksAfter s).filter (isAway top k) = (o.marksAfter s).filter (isAway top k) := by
  cases s with
  | keyValue key v =>
    rw [Output.marksAfter, Output.marksAfter, h.header]
    split
    · rw [List.filter_cons, List.filter_cons, h.marks]
    · exact h.marks
  | table key =>
    rw [Output.marksAfter, Output.marksAfter, List.filter_cons, List.filter_cons, h.finalizePending]
  | element key =>
    rw [Output.marksAfter, Output.marksAfter, List.filter_cons, List.filter_cons,
      List.filter_comm, List.filter_comm (l := o.finalizePending.marks), h.finalizePending]

/-! ## Statement by statement -/

theorem Sealed.apply (hsealed : Sealed top k o) (h : o.apply s = some o₂) : Sealed top k o₂ := by
  have hs := not_touched hsealed h
  obtain ⟨inner, v, htop, hk, hmark⟩ := hsealed.has
  obtain ⟨-, data, hdata, rfl⟩ := apply_eq_some_iff.mp h
  obtain ⟨-, inner', htop', hk'⟩ := nest_withoutIn htop hs hdata
  refine ⟨inner', v, htop', hk'.trans hk, fun hv => ?_⟩
  have hmem := hmark hv
  cases s with
  | keyValue key w =>
    rw [Output.marksAfter]
    split
    · exact List.mem_cons_of_mem _ hmem
    · exact hmem
  | table key => exact List.mem_cons_of_mem _ (mem_finalizePending hmem)
  | element key =>
    -- the marks below `key` are taken away, and the key is not below it
    refine List.mem_cons_of_mem _ (List.mem_filter.mpr ⟨mem_finalizePending hmem, ?_⟩)
    have hbelow : key.path.isPrefixOf [top, k] = false := by
      refine Bool.eq_false_iff.mpr fun habove => ?_
      rw [List.isPrefixOf_iff_prefix, Key.path] at habove
      have htouched : o.touched (.element key) = key.parents ++ [key.stem] := rfl
      rw [htouched] at hs
      rw [Output.parentsOf] at hdata
      cases hp : key.parents with
      | nil =>
        obtain rfl : key.stem = top := by simpa [hp] using habove
        rw [hp, nest, Statement.edit_actsAt] at hdata
        simp [Statement.key, htop, Statement.editAt, appendAt] at hdata
      | cons x ks =>
        rw [hp] at habove hs
        exact hs ((habove.eq_of_length_le (by simp)) ▸ List.prefix_rfl)
    rw [hbelow]
    rfl

/-- What the one reader does the other one does, and they stay the same but for the key. -/
theorem Without.apply (hsealed : Sealed top k o) (hw : Without top k o o')
    (h : o.apply s = some o₂) : ∃ o₂', o'.apply s = some o₂' ∧ Without top k o₂ o₂' := by
  have hs := not_touched hsealed h
  obtain ⟨inner, v, htop, hk, hmark⟩ := hsealed.has
  obtain ⟨hrefused, data, hdata, rfl⟩ := apply_eq_some_iff.mp h
  obtain ⟨hwithout, -⟩ := nest_withoutIn htop hs hdata
  have hparents : o'.parentsOf s = o.parentsOf s := by
    cases s <;> simp [parentsOf, hw.header]
  rw [← hw.data, ← hparents] at hwithout
  refine ⟨_, apply_eq_some_iff.mpr ⟨hw.refused hs ▸ hrefused, _, hwithout, rfl⟩, ?_⟩
  refine ⟨rfl, hw.marksAfter s, ?_, ?_⟩
  · cases s <;> simp [Output.pendingAfter, opened, hw.header, hw.pending]
  · rw [hw.header]

/-- The same over all that follows. -/
theorem Without.applyAll {l : List Statement} (hsealed : Sealed top k o) (hw : Without top k o o')
    (h : o.applyAll l = some o₂) : ∃ o₂', o'.applyAll l = some o₂' ∧ Without top k o₂ o₂' := by
  induction l generalizing o o' with
  | nil =>
    obtain rfl := Option.some.inj h
    exact ⟨o', rfl, hw⟩
  | cons s l ih =>
    obtain ⟨o₁, h₁, h₂⟩ := Option.bind_eq_some_iff.mp h
    obtain ⟨o₁', h₁', hw₁⟩ := hw.apply hsealed h₁
    obtain ⟨o₂', h₂', hw₂⟩ := ih (hsealed.apply h₁) hw₁ h₂
    exact ⟨o₂', Option.bind_eq_some_iff.mpr ⟨o₁', h₁', h₂'⟩, hw₂⟩

/-! ## What is there stays there -/

theorem typeName_of_apply (h : o.apply s = some o₂) {x : String} {v : Value}
    (hv : o.data.lookup x = some v) :
    ∃ v', o₂.data.lookup x = some v' ∧ v'.typeName = v.typeName := by
  obtain ⟨-, data, hdata, rfl⟩ := apply_eq_some_iff.mp h
  obtain ⟨y, rest, u, -, hacts, hkeeps⟩ := exists_actsAt (o.parentsOf s) s
  by_cases hx : x = y
  · obtain rfl := hx
    obtain ⟨v', hv'⟩ := Option.isSome_iff_exists.mp (hacts.isSome_lookup hdata)
    have hu : u (some v) = some v' := by rw [← hv, ← hacts.lookup_self hdata, hv']
    exact ⟨v', hv', hkeeps v v' hu⟩
  · exact ⟨v, (hacts.lookup_of_ne hdata hx).trans hv, rfl⟩

theorem typeName_of_applyAll {l : List Statement} (h : o.applyAll l = some o₂) {x : String}
    {v : Value} (hv : o.data.lookup x = some v) :
    ∃ v₂, o₂.data.lookup x = some v₂ ∧ v₂.typeName = v.typeName := by
  induction l generalizing o v with
  | nil =>
    obtain rfl := Option.some.inj h
    exact ⟨v, hv, rfl⟩
  | cons s l ih =>
    obtain ⟨o₁, h₁, h₂⟩ := Option.bind_eq_some_iff.mp h
    obtain ⟨v₁, hv₁, htype⟩ := typeName_of_apply h₁ hv
    obtain ⟨v₂, hv₂, htype₂⟩ := ih h₂ hv₁
    exact ⟨v₂, hv₂, htype₂.trans htype⟩

/-- The table that the header names is there. -/
def HasHeader (o : Output) : Prop :=
  ∀ x rest, o.header.path = x :: rest → (o.data.lookup x).isSome = true

theorem HasHeader.apply (ho : HasHeader o) (h : o.apply s = some o₂) : HasHeader o₂ := by
  have hthere : ∀ x, (o.data.lookup x).isSome = true → (o₂.data.lookup x).isSome = true := by
    intro x hx
    obtain ⟨w, hw⟩ := Option.isSome_iff_exists.mp hx
    obtain ⟨w', hw', -⟩ := typeName_of_apply h hw
    exact Option.isSome_iff_exists.mpr ⟨w', hw'⟩
  obtain ⟨-, data, hdata, rfl⟩ := apply_eq_some_iff.mp h
  obtain ⟨y, rest', u, hpath, hacts, -⟩ := exists_actsAt (o.parentsOf s) s
  have hsome := hacts.isSome_lookup hdata
  intro x rest hx
  cases s with
  | keyValue key v => exact hthere x (ho x rest hx)
  | table key =>
    have heq : x :: rest = y :: rest' := hx.symm.trans hpath
    rwa [(List.cons.inj heq).1]
  | element key =>
    have heq : x :: rest = y :: rest' := hx.symm.trans hpath
    rwa [(List.cons.inj heq).1]

/-! ## Statements that are left out -/

/-- After a statement that gives a key of a top-level table its value the key is sealed, and the
state is the one before but for the key. -/
theorem sealed_of_keyValue {v : Value} {inner : Table} (htop : o.data.lookup top = some (.table inner))
    (hheader : o.header = .table ⟨[], top⟩) (h : o.apply (.keyValue ⟨[], k⟩ v) = some o₂) :
    Sealed top k o₂ ∧ Without top k o₂ o := by
  obtain ⟨-, data, hdata, rfl⟩ := apply_eq_some_iff.mp h
  have hparents : o.parentsOf (.keyValue ⟨[], k⟩ v) = [top] := by
    rw [parentsOf, hheader]
    rfl
  rw [hparents, nest_cons_of_table htop, nest, Statement.edit, insertNew] at hdata
  cases hk : inner.lookup k with
  | some w => simp [hk] at hdata
  | none =>
    obtain rfl : o.data.set top (.table (inner ++ [(k, v)])) = data := by simpa [hk] using hdata
    have hmarks : o.marksAfter (.keyValue ⟨[], k⟩ v) =
        if v.isContainer then ⟨[top, k], .frozen, true⟩ :: o.marks else o.marks := by
      rw [marksAfter, hheader]
      rfl
    refine ⟨⟨inner ++ [(k, v)], v, ?_, ?_, ?_⟩, ?_, ?_, ?_, rfl⟩
    · rw [Table.set, lookup_modify, if_pos rfl, htop]
      rfl
    · rw [lookup_append_singleton, hk, if_pos rfl]
      rfl
    · intro hv
      rw [hmarks, if_pos hv]
      exact List.mem_cons_self
    · rw [Table.set, Table.withoutIn, modify_modify]
      refine (modify_eq_self fun w hw => ?_).symm
      rw [htop] at hw
      obtain rfl := Option.some.inj hw
      rw [Value.without, without_append_self hk]
    · rw [hmarks]
      split
      · rw [List.filter_cons, if_neg (by simp [isAway])]
      · rfl
    · rfl

/-- The second list is the first without some statements that give one of the keys of the top-level
table its value. -/
inductive Dropped (top : String) (keys : List String) :
    Header → List Statement → List Statement → Prop
  | nil {h : Header} : Dropped top keys h [] []
  | keep {h : Header} {s : Statement} {l l' : List Statement} :
      Dropped top keys (h.after s) l l' → Dropped top keys h (s :: l) (s :: l')
  | drop {k : String} {v : Value} {l l' : List Statement} :
      k ∈ keys → Dropped top keys (.table ⟨[], top⟩) l l' →
      Dropped top keys (.table ⟨[], top⟩) (.keyValue ⟨[], k⟩ v :: l) l'

/-- Without these statements the dictionary is the same but for the keys. -/
theorem applyAll_dropped {keys : List String} {l l' : List Statement} (ho : HasHeader o)
    (hl : Dropped top keys o.header l l') (h : o.applyAll l = some o₂)
    (htable : ∀ v, o₂.data.lookup top = some v → ∃ t, v = .table t) :
    ∃ (o₂' : Output) (ks : List String), o.applyAll l' = some o₂' ∧ (∀ k ∈ ks, k ∈ keys) ∧
      o₂'.data = ks.foldr (Table.withoutIn top) o₂.data := by
  generalize hheader : o.header = header at hl
  induction hl generalizing o with
  | nil => exact ⟨o₂, [], h, by simp, rfl⟩
  | @keep header s l l' _ ih =>
    obtain ⟨o₁, h₁, h₂⟩ := Option.bind_eq_some_iff.mp h
    have hheader₁ : o₁.header = o.header.after s := by
      obtain ⟨-, _, -, rfl⟩ := apply_eq_some_iff.mp h₁
      rfl
    obtain ⟨o₂', ks, h₂', hks, hdata⟩ := ih (ho.apply h₁) h₂ (hheader₁.trans (by rw [hheader]))
    exact ⟨o₂', ks, Option.bind_eq_some_iff.mpr ⟨o₁, h₁, h₂'⟩, hks, hdata⟩
  | @drop k v l l' hk _ ih =>
    obtain ⟨o₁, h₁, h₂⟩ := Option.bind_eq_some_iff.mp h
    have hheader₁ : o₁.header = o.header := by
      obtain ⟨-, _, -, rfl⟩ := apply_eq_some_iff.mp h₁
      rfl
    obtain ⟨w, hw⟩ := Option.isSome_iff_exists.mp (ho top [] (by rw [hheader]; rfl))
    obtain ⟨w₂, hw₂, htype⟩ := typeName_of_applyAll h hw
    obtain ⟨inner, rfl⟩ : ∃ t, w = .table t := by
      obtain ⟨t, rfl⟩ := htable w₂ hw₂
      exact typeName_eq_dict_iff.mp htype.symm
    obtain ⟨hsealed, hwithout⟩ := sealed_of_keyValue hw hheader h₁
    obtain ⟨o₂', ks, h₂', hks, hdata⟩ := ih (ho.apply h₁) h₂ (hheader₁.trans hheader)
    obtain ⟨o₃, h₃, hw₃⟩ := hwithout.applyAll hsealed h₂'
    refine ⟨o₃, k :: ks, h₃, List.forall_mem_cons.mpr ⟨hk, hks⟩, ?_⟩
    rw [hw₃.data, hdata, List.foldr_cons]

end Output

/-! ## The text without the statements -/

theorem replaceReturns_of_not_mem {s : List Char} (h : '\r' ∉ s) : replaceReturns s = s := by
  fun_induction replaceReturns s with
  | case1 s ih => simp at h
  | case2 c s hne ih => rw [ih fun hs => h (List.mem_cons_of_mem _ hs)]
  | case3 => rfl

variable {scalar : List Char → Option Value} {depth : Nat} {s : List Char}
  {chunks : List (List Char × Option Statement)}

theorem chunks_of_statementsOf (h : statementsOf scalar depth s = some chunks) :
    Chunks scalar depth (replaceReturns s) chunks := Chunks.of_parseStatements h

/-- A document from which statements are taken out whole says the same but for the keys that they
gave their values. -/
theorem loads_dropped {top : String} {keys : List String} {t : Table}
    (f : List Char × Option Statement → Bool) (hs : statementsOf scalar depth s = some chunks)
    (ht : loads scalar depth s = some t) (htop : ∀ v, t.lookup top = some v → ∃ i, v = .table i)
    (hf : Output.Dropped top keys .root (chunks.filterMap Prod.snd)
      ((chunks.filter f).filterMap Prod.snd)) :
    ∃ ks : List String, (∀ k ∈ ks, k ∈ keys) ∧
      loads scalar depth ((chunks.filter f).flatMap Prod.fst) =
        some (ks.foldr (Table.withoutIn top) t) := by
  have hchunks := chunks_of_statementsOf hs
  rw [loads, hs, Option.bind_some] at ht
  obtain ⟨o, ho, rfl⟩ := Option.map_eq_some_iff.mp ht
  have hroot : Output.HasHeader {} := fun x rest h => by cases h
  obtain ⟨o', ks, ho', hks, hdata⟩ := Output.applyAll_dropped hroot hf ho htop
  obtain ⟨chunks', hchunks', hstatements⟩ := hchunks.filter f
  have hread : statementsOf scalar depth ((chunks.filter f).flatMap Prod.fst) = some chunks' := by
    rw [statementsOf, replaceReturns_of_not_mem hchunks'.not_mem]
    exact hchunks'.parseStatements (Nat.lt_succ_self _)
  refine ⟨ks, hks, ?_⟩
  rw [loads, hread, Option.bind_some, hstatements, ho', Option.map_some, hdata]

end OpenHost.Toml
