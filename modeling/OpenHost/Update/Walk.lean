import OpenHost.Update.Repo

/-!
# Where the update walk ends

`StepSound` says when one step of the walk does what the docstring of `_next_step` promises; where
every step does, the walk ends, at the right commit, and never goes back (`updateWalk_of_stepSound`).
The measure is the number of releases newer than the one `git describe` names at HEAD.

A release commit at which `git describe` names a release candidate breaks the measure: the walk then
checks out the same commit for ever (`candidateTag_not_updateWalk`).
-/

namespace OpenHost.Update

/-- In a table without repeated keys, `lookup` finds exactly the entries. -/
theorem lookup_eq_some_iff {α β : Type} [DecidableEq α] {l : List (α × β)} {a : α} {b : β}
    (h : (l.map Prod.fst).Nodup) : l.lookup a = some b ↔ (a, b) ∈ l := by
  induction l with
  | nil => simp
  | cons entry rest ih =>
    obtain ⟨a', b'⟩ := entry
    rw [List.map_cons, List.nodup_cons] at h
    by_cases ha : a = a'
    · subst ha
      have hrest : (a, b) ∉ rest := fun hmem => h.1 (List.mem_map.mpr ⟨_, hmem, rfl⟩)
      simp [hrest, eq_comm]
    · have hbeq : (a == a') = false := beq_eq_false_iff_ne.mpr ha
      simp [List.lookup_cons, hbeq, ih h.2, ha]

namespace Repo

variable {C : Type} [DecidableEq C]

/-! ## The releases that are left -/

/-- The names of the tags, in the order in which they are listed. -/
def tagNames (r : Repo C) : List String := r.tags.map Prod.fst

/-- The release `t` is contained in the commit `c`. -/
def HasRelease (r : Repo C) (c : C) (t : String) : Prop :=
  isReleaseTag t = true ∧ ∃ a, (t, a) ∈ r.tags ∧ r.contains c a = true

/-- No release is newer than the release `m`. -/
structure IsLatest (r : Repo C) (m : String) : Prop where
  listed : m ∈ r.tagNames
  release : isReleaseTag m = true
  newest : ∀ t ∈ r.tagNames, isReleaseTag t = true → versionKey t ≤ versionKey m

/-- The release `t` is newer than the base at `c`, and in the pinned commit if there is one. -/
structure Ahead (r : Repo C) (pin : Option C) (c : C) (t : String) : Prop where
  listed : t ∈ r.tagNames
  release : isReleaseTag t = true
  newer : newerThan (r.base c) t = true
  contained : ∀ sha, pin = some sha → r.isAncestor t sha = true

/-- The oldest release ahead; of equal versions the one listed first. -/
structure IsNext (r : Repo C) (pin : Option C) (c : C) (t : String) : Prop where
  ahead : r.Ahead pin c t
  oldest : ∀ u, r.Ahead pin c u → versionKey t ≤ versionKey u
  first : ∀ u, r.Ahead pin c u → versionKey u = versionKey t → u ≠ t → [t, u].Sublist r.tagNames

theorem tagCommit?_eq_some {r : Repo C} {t : String} {c : C} :
    r.tagCommit? t = some c ↔ (t, c) ∈ r.tags :=
  lookup_eq_some_iff r.tags_nodup

theorem mem_tagNames {r : Repo C} {t : String} : t ∈ r.tagNames ↔ ∃ c, (t, c) ∈ r.tags := by
  simp [tagNames]

theorem mem_getSortedTags {r : Repo C} {t : String} :
    t ∈ r.getSortedTags ↔ t ∈ r.tagNames ∧ isReleaseTag t = true := by
  simp [getSortedTags, tagNames]

theorem mem_laterTags {r : Repo C} {pin : Option C} {c : C} {t : String} :
    t ∈ r.laterTags pin c ↔ r.Ahead pin c t := by
  cases pin with
  | none =>
    simp only [laterTags, List.mem_filter, mem_getSortedTags]
    constructor
    · rintro ⟨⟨hlisted, hrelease⟩, hnewer⟩
      exact ⟨hlisted, hrelease, hnewer, by simp⟩
    · rintro ⟨hlisted, hrelease, hnewer, -⟩
      exact ⟨⟨hlisted, hrelease⟩, hnewer⟩
  | some sha =>
    simp only [laterTags, List.mem_filter, mem_getSortedTags]
    constructor
    · rintro ⟨⟨⟨hlisted, hrelease⟩, hnewer⟩, hcontained⟩
      exact ⟨hlisted, hrelease, hnewer, by simpa using hcontained⟩
    · rintro ⟨hlisted, hrelease, hnewer, hcontained⟩
      exact ⟨⟨⟨hlisted, hrelease⟩, hnewer⟩, hcontained sha rfl⟩

theorem laterTags_sublist (r : Repo C) (pin : Option C) (c : C) :
    (r.laterTags pin c).Sublist r.getSortedTags := by
  cases pin with
  | none => exact List.filter_sublist
  | some sha => exact List.filter_sublist.trans List.filter_sublist

theorem pairwise_laterTags (r : Repo C) (pin : Option C) (c : C) :
    (r.laterTags pin c).Pairwise fun t u => versionKey t ≤ versionKey u := by
  have hsorted : r.getSortedTags.Pairwise fun t u => versionKey t ≤ versionKey u :=
    List.pairwise_insertionSort _ _
  exact hsorted.sublist (r.laterTags_sublist pin c)

/-- Of two releases of one version the sort keeps the order. -/
theorem pair_sublist_laterTags {r : Repo C} {pin : Option C} {c : C} {t u : String}
    (ht : r.Ahead pin c t) (hu : r.Ahead pin c u) (hkey : versionKey t ≤ versionKey u)
    (h : [t, u].Sublist r.tagNames) : [t, u].Sublist (r.laterTags pin c) := by
  have hrelease : [t, u].Sublist (r.tagNames.filter isReleaseTag) := by
    simpa [ht.release, hu.release] using h.filter isReleaseTag
  have hsorted : [t, u].Sublist r.getSortedTags := List.pair_sublist_insertionSort hkey hrelease
  have hnewer := hsorted.filter (newerThan (r.base c))
  cases pin with
  | none => simpa [laterTags, ht.newer, hu.newer] using hnewer
  | some sha =>
    have hcontained := hnewer.filter fun t => r.isAncestor t sha
    simpa [laterTags, ht.newer, hu.newer, ht.contained sha rfl, hu.contained sha rfl] using hcontained

theorem tagNames_nodup (r : Repo C) : r.tagNames.Nodup := r.tags_nodup

theorem laterTags_nodup (r : Repo C) (pin : Option C) (c : C) : (r.laterTags pin c).Nodup := by
  have hsorted : r.getSortedTags.Nodup :=
    (List.perm_insertionSort _ _).nodup_iff.mpr (r.tagNames_nodup.filter isReleaseTag)
  exact hsorted.sublist (r.laterTags_sublist pin c)

/-- Of two names in a list without repetition one stands before the other. -/
theorem pair_sublist_or {l : List String} {t u : String} (ht : t ∈ l) (hu : u ∈ l) (hne : t ≠ u) :
    [t, u].Sublist l ∨ [u, t].Sublist l := by
  induction l with
  | nil => cases ht
  | cons v rest ih =>
    rcases List.mem_cons.mp ht with rfl | ht'
    · exact .inl ((List.singleton_sublist.mpr (List.mem_of_ne_of_mem hne.symm hu)).cons_cons _)
    · rcases List.mem_cons.mp hu with rfl | hu'
      · exact .inr ((List.singleton_sublist.mpr ht').cons_cons _)
      · exact (ih ht' hu').imp (·.cons _) (·.cons _)

theorem not_pair_sublist_swap {l : List String} {t u : String} (hnodup : l.Nodup)
    (h : [t, u].Sublist l) : ¬ [u, t].Sublist l := by
  induction l with
  | nil => cases h
  | cons v rest ih =>
    rw [List.nodup_cons] at hnodup
    intro h'
    rcases List.sublist_cons_iff.mp h with hrest | ⟨tail, htail, hu⟩
    · rcases List.sublist_cons_iff.mp h' with hrest' | ⟨tail, htail, -⟩
      · exact ih hnodup.2 hrest hrest'
      · obtain ⟨rfl, -⟩ := List.cons.inj htail
        exact hnodup.1 (hrest.subset (by simp))
    · obtain ⟨rfl, rfl⟩ := List.cons.inj htail
      rcases List.sublist_cons_iff.mp h' with hrest' | ⟨tail, htail, -⟩
      · exact hnodup.1 (hrest'.subset (by simp))
      · obtain ⟨rfl, -⟩ := List.cons.inj htail
        exact hnodup.1 (List.singleton_sublist.mp hu)

/-- What `_next_step` takes from the list is the next release. -/
theorem isNext_of_laterTags {r : Repo C} {pin : Option C} {c : C} {t : String} {rest : List String}
    (h : r.laterTags pin c = t :: rest) : r.IsNext pin c t := by
  have hpairs := r.pairwise_laterTags pin c
  rw [h, List.pairwise_cons] at hpairs
  have hnodup := r.laterTags_nodup pin c
  rw [h, List.nodup_cons] at hnodup
  have ht : r.Ahead pin c t := mem_laterTags.mp (h ▸ List.mem_cons_self)
  refine ⟨ht, fun u hu => ?_, fun u hu hkey hne => ?_⟩
  · have hmem : u ∈ t :: rest := h ▸ mem_laterTags.mpr hu
    rcases List.mem_cons.mp hmem with rfl | hrest
    · exact le_refl _
    · exact hpairs.1 u hrest
  · rcases pair_sublist_or ht.listed hu.listed hne.symm with hfirst | hlater
    · exact hfirst
    · -- a stable sort would have kept `u` before `t`
      have hsub := pair_sublist_laterTags hu ht (le_of_eq hkey) hlater
      rw [h] at hsub
      have hmem : t ∈ rest := by
        rcases List.sublist_cons_iff.mp hsub with hsub | ⟨tail, htail, hsub⟩
        · exact hsub.subset (by simp)
        · obtain ⟨-, rfl⟩ := List.cons.inj htail
          exact List.singleton_sublist.mp hsub
      exact absurd hmem hnodup.1

/-! ## The base -/

theorem isReleaseTag_of_base {r : Repo C} {c : C} {b : String} (h : r.base c = some b) :
    isReleaseTag b = true := by
  rcases (Option.orElse_eq_some _ _ _).mp h with h | ⟨-, h⟩
  · exact (Option.filter_eq_some_iff.mp h).2
  · exact (Option.filter_eq_some_iff.mp h).2

/-- The base is a release that the commit contains. -/
theorem hasRelease_of_base {r : Repo C} {c : C} {b : String} (h : r.base c = some b) :
    r.HasRelease c b := by
  refine ⟨isReleaseTag_of_base h, ?_⟩
  rcases (Option.orElse_eq_some _ _ _).mp h with h | ⟨-, h⟩
  · have htag := r.describeExact_tag c b (Option.filter_eq_some_iff.mp h).1
    exact ⟨c, htag, r.contains_refl c⟩
  · obtain ⟨a, htag, hcontains, -⟩ := r.describeNearest_tag c b (Option.filter_eq_some_iff.mp h).1
    exact ⟨a, htag, hcontains⟩

/-- At a tagged commit the base is one of the commit's own tags. -/
theorem tagged_base {r : Repo C} {c : C} {t b : String} (ht : (t, c) ∈ r.tags)
    (h : r.base c = some b) : (b, c) ∈ r.tags := by
  rcases (Option.orElse_eq_some _ _ _).mp h with h | ⟨-, h⟩
  · exact r.describeExact_tag c b (Option.filter_eq_some_iff.mp h).1
  · obtain ⟨a, htag, hcontains, hnearest⟩ :=
      r.describeNearest_tag c b (Option.filter_eq_some_iff.mp h).1
    have hca : c = a := hnearest t c ht (r.contains_refl c) hcontains
    exact hca ▸ htag

theorem newerThan_some {b t : String} : newerThan (some b) t = true ↔ versionKey b < versionKey t :=
  decide_eq_true_iff

/-- With nothing ahead and no pin the base is a latest release. -/
theorem isLatest_base {r : Repo C} {c : C} {b : String} (hlater : r.laterTags none c = [])
    (h : r.base c = some b) : r.IsLatest b := by
  obtain ⟨hrelease, a, htag, -⟩ := hasRelease_of_base h
  refine ⟨mem_tagNames.mpr ⟨a, htag⟩, hrelease, fun t hlisted ht => ?_⟩
  by_contra hlt
  have hahead : r.Ahead none c t :=
    ⟨hlisted, ht, by rw [h]; exact newerThan_some.mpr (not_le.mp hlt), by simp⟩
  have hmem := mem_laterTags.mpr hahead
  rw [hlater] at hmem
  cases hmem

/-- With nothing ahead, no pin and no base there is no release. -/
theorem no_release_of_base_none {r : Repo C} {c : C} (hlater : r.laterTags none c = [])
    (h : r.base c = none) {t : String} (hlisted : t ∈ r.tagNames) : isReleaseTag t = false := by
  by_contra ht
  have hahead : r.Ahead none c t := ⟨hlisted, by simpa using ht, by rw [h]; rfl, by simp⟩
  have hmem := mem_laterTags.mpr hahead
  rw [hlater] at hmem
  cases hmem

/-! ## One step -/

/-- There is no target, or it resolves. -/
def Resolvable (r : Repo C) (target : Option String) : Prop :=
  target.isSome = true → (r.pinned target).isSome = true

instance (r : Repo C) (target : Option String) : Decidable (r.Resolvable target) :=
  inferInstanceAs (Decidable (_ → _))

/-- `_next_step` stops at the pin, takes the next release, or goes to the pin when none is left. -/
theorem nextStep_cases {r : Repo C} {target : Option String} (h : r.Resolvable target) (c : C) :
    (r.pinned target = some c ∧ r.nextStep target c = .ok none) ∨
    (r.pinned target ≠ some c ∧
      ∃ t, r.IsNext (r.pinned target) c t ∧ r.nextStep target c = .ok (some t)) ∨
    (r.pinned target ≠ some c ∧ r.laterTags (r.pinned target) c = [] ∧
      r.nextStep target c = .ok target) := by
  have hguard : ¬ ((target.isSome && (r.pinned target).isNone) = true) := by
    intro hbad
    rw [Bool.and_eq_true, Option.isNone_iff_eq_none] at hbad
    have hsome := h hbad.1
    rw [hbad.2] at hsome
    cases hsome
  by_cases hpin : r.pinned target = some c
  · refine .inl ⟨hpin, ?_⟩
    rw [nextStep, if_neg hguard, if_pos hpin]
  · refine .inr ?_
    cases hlater : r.laterTags (r.pinned target) c with
    | cons t rest =>
      refine .inl ⟨hpin, t, isNext_of_laterTags hlater, ?_⟩
      rw [nextStep, if_neg hguard, if_neg hpin, hlater]
    | nil =>
      refine .inr ⟨hpin, rfl, ?_⟩
      rw [nextStep, if_neg hguard, if_neg hpin, hlater]
      cases target with
      | none => rfl
      | some ref => simp only [h rfl, if_true]

/-- The releases ahead, and the hop to the pin. -/
def hopsLeft (r : Repo C) (pin : Option C) (c : C) : Nat :=
  if pin = some c then 0 else (r.laterTags pin c).length + 1

/-- A step to the release `t` does what it is for: it lands on the release, which `git describe`
then names (or a newer one), and it does not lead back behind what HEAD contains. -/
structure StepSound (r : Repo C) (pin : Option C) (head c : C) (t : String) : Prop where
  /-- No remote branch stands in the release's name. -/
  resolves : r.checkout t = r.tagCommit? t
  /-- The release's commit is the pin, or its base is at least as new. -/
  progress : ∀ c', r.tagCommit? t = some c' →
    pin = some c' ∨ ∃ b, r.base c' = some b ∧ versionKey t ≤ versionKey b
  /-- HEAD contains nothing newer. -/
  newest : pin = none → ∀ m, r.HasRelease c m → versionKey m ≤ versionKey t
  /-- A walk that starts at a commit with a latest release takes no step. -/
  start : pin = none → c = head → ∀ m, r.HasRelease head m → ¬ r.IsLatest m

/-- Every step the walk takes from `head` to a release is sound. -/
def StepsSound (r : Repo C) (target : Option String) (head : C) : Prop :=
  ∀ c, Relation.ReflTransGen (r.Moves target) head c → r.pinned target ≠ some c →
    ∀ t, r.IsNext (r.pinned target) c t → r.StepSound (r.pinned target) head c t

/-- A newer base has fewer releases ahead. -/
theorem ahead_of_newer_base {r : Repo C} {pin : Option C} {c c' : C} {t b u : String}
    (ht : r.Ahead pin c t) (hb : r.base c' = some b) (hkey : versionKey t ≤ versionKey b)
    (hu : r.Ahead pin c' u) : r.Ahead pin c u := by
  have hbu : versionKey b < versionKey u := by
    have hnewer := hu.newer
    rwa [hb, newerThan_some] at hnewer
  refine ⟨hu.listed, hu.release, ?_, hu.contained⟩
  have hnewer := ht.newer
  cases hbase : r.base c with
  | none => rfl
  | some b₀ =>
    rw [hbase, newerThan_some] at hnewer
    exact newerThan_some.mpr (hnewer.trans_le (hkey.trans hbu.le))

theorem hopsLeft_lt_of_release {r : Repo C} {pin : Option C} {head c c' : C} {t : String}
    (hpin : pin ≠ some c) (ht : r.IsNext pin c t) (hs : r.StepSound pin head c t)
    (hc' : r.tagCommit? t = some c') : r.hopsLeft pin c' < r.hopsLeft pin c := by
  rw [hopsLeft, hopsLeft, if_neg hpin]
  by_cases hpin' : pin = some c'
  · rw [if_pos hpin']
    omega
  · rw [if_neg hpin']
    obtain ⟨b, hb, hkey⟩ := (hs.progress c' hc').resolve_left hpin'
    -- `t` itself is no longer ahead, and nothing else has come to be ahead
    have hnot : t ∉ r.laterTags pin c' := by
      intro hmem
      have hnewer := (mem_laterTags.mp hmem).newer
      rw [hb, newerThan_some] at hnewer
      exact absurd hnewer (not_lt.mpr hkey)
    have hsubset : t :: r.laterTags pin c' ⊆ r.laterTags pin c := by
      intro u hu
      rcases List.mem_cons.mp hu with rfl | hu
      · exact mem_laterTags.mpr ht.ahead
      · exact mem_laterTags.mpr (ahead_of_newer_base ht.ahead hb hkey (mem_laterTags.mp hu))
    have hnodup : (t :: r.laterTags pin c').Nodup :=
      List.nodup_cons.mpr ⟨hnot, r.laterTags_nodup pin c'⟩
    have hle := (List.subperm_of_subset hnodup hsubset).length_le
    rw [List.length_cons] at hle
    omega

/-- Every move of a walk with sound steps comes closer to the end. -/
theorem hopsLeft_lt_of_moves {r : Repo C} {target : Option String} {head c c' : C}
    (hres : r.Resolvable target) (hsound : r.StepsSound target head)
    (hreach : Relation.ReflTransGen (r.Moves target) head c) (h : r.Moves target c c') :
    r.hopsLeft (r.pinned target) c' < r.hopsLeft (r.pinned target) c := by
  obtain ⟨step, hstep, hcheckout⟩ := h
  rcases nextStep_cases hres c with ⟨-, heq⟩ | ⟨hpin, t, ht, heq⟩ | ⟨hpin, -, heq⟩
  · rw [heq] at hstep
    cases hstep
  · rw [heq] at hstep
    obtain rfl : t = step := Option.some.inj (Except.ok.inj hstep)
    have hs := hsound c hreach hpin t ht
    exact hopsLeft_lt_of_release hpin ht hs (hs.resolves ▸ hcheckout)
  · rw [heq] at hstep
    obtain rfl : target = some step := Except.ok.inj hstep
    have hsha : r.pinned (some step) = some c' := by
      rcases (Option.orElse_eq_some _ _ _).mp hcheckout with hresolve | ⟨hnone, -⟩
      · exact hresolve
      · have hsome := hres rfl
        rw [pinned, Option.bind_some, hnone] at hsome
        cases hsome
    rw [hopsLeft, hopsLeft, if_pos hsha, if_neg hpin]
    omega

/-- A commit at which the walk has not arrived has a next one. -/
theorem arrived_or_moves {r : Repo C} {target : Option String} {head c : C}
    (hres : r.Resolvable target) (hsound : r.StepsSound target head)
    (hreach : Relation.ReflTransGen (r.Moves target) head c) :
    r.Arrived target c ∨ ∃ c', r.Moves target c c' := by
  rcases nextStep_cases hres c with ⟨-, heq⟩ | ⟨hpin, t, ht, heq⟩ | ⟨hpin, -, heq⟩
  · exact .inl heq
  · obtain ⟨c', hc'⟩ := mem_tagNames.mp ht.ahead.listed
    have hs := hsound c hreach hpin t ht
    exact .inr ⟨c', t, heq, hs.resolves.trans (tagCommit?_eq_some.mpr hc')⟩
  · cases target with
    | none => exact .inl heq
    | some ref =>
      obtain ⟨sha, hsha⟩ := Option.isSome_iff_exists.mp (hres rfl)
      exact .inr ⟨sha, ref, heq, (Option.orElse_eq_some _ _ _).mpr (.inl hsha)⟩

/-! ## The whole walk -/

/-- The walk from `head` is to end at `last`. -/
structure Destination (r : Repo C) (target : Option String) (head last : C) : Prop where
  /-- A pinned walk ends at the pin. -/
  pinned : ∀ sha, r.pinned target = some sha → last = sha
  /-- HEAD stays where it contains a latest release. -/
  stays : target = none → (∃ m, r.IsLatest m ∧ r.HasRelease head m) → last = head
  /-- Otherwise it comes to the commit of a latest release. -/
  arrives : target = none → (∃ t ∈ r.tagNames, isReleaseTag t = true) →
    (¬ ∃ m, r.IsLatest m ∧ r.HasRelease head m) → ∃ m, r.IsLatest m ∧ (m, last) ∈ r.tags
  /-- Without any release HEAD stays. -/
  unreleased : target = none → (∀ t ∈ r.tagNames, isReleaseTag t = false) → last = head

/-- HEAD never moves from a commit of `path` to a release older than one the commit contains. -/
def NeverOlder (r : Repo C) (path : List C) : Prop :=
  ∀ c ∈ path, ∀ t, r.nextStep none c = .ok (some t) → ∀ m, r.HasRelease c m →
    versionKey m ≤ versionKey t

/-- The update walk from `head`: it stops, visits no commit twice, ends at its destination, and does
not go back when no target is pinned. -/
def UpdateWalk (r : Repo C) (target : Option String) (head : C) : Prop :=
  ∃ path last, Walks (r.Arrived target) (r.Moves target) head path last ∧ path.Nodup ∧
    r.Destination target head last ∧ (target = none → r.NeverOlder path)

theorem not_moves_of_arrived {r : Repo C} {target : Option String} {c c' : C}
    (h : r.Arrived target c) : ¬ r.Moves target c c' := by
  rintro ⟨step, hstep, -⟩
  rw [show r.nextStep target c = .ok none from h] at hstep
  cases hstep

theorem last_eq_of_arrived {r : Repo C} {target : Option String} {head last : C} {path : List C}
    (hw : Walks (r.Arrived target) (r.Moves target) head path last) (h : r.Arrived target head) :
    last = head := by
  cases hw with
  | stop _ => rfl
  | step hs _ => exact absurd hs (not_moves_of_arrived h)

/-- With no release ahead an unpinned walk has arrived. -/
theorem arrived_of_no_next {r : Repo C} {c : C} (h : ∀ t, ¬ r.IsNext none c t) :
    r.Arrived none c := by
  have hres : r.Resolvable none := nofun
  rcases nextStep_cases hres c with ⟨hpin, -⟩ | ⟨-, t, ht, -⟩ | ⟨-, -, heq⟩
  · cases hpin
  · exact absurd ht (h t)
  · exact heq

theorem laterTags_of_arrived {r : Repo C} {c : C} (h : r.Arrived none c) :
    r.laterTags none c = [] := by
  have hres : r.Resolvable none := nofun
  rcases nextStep_cases hres c with ⟨hpin, -⟩ | ⟨-, t, -, heq⟩ | ⟨-, hlater, -⟩
  · cases hpin
  · rw [show r.nextStep none c = .ok none from h] at heq
    cases heq
  · exact hlater

/-- The end of a pinned walk. -/
theorem last_eq_pinned {r : Repo C} {target : Option String} {last sha : C}
    (hres : r.Resolvable target) (h : r.Arrived target last) (hsha : r.pinned target = some sha) :
    last = sha := by
  rcases nextStep_cases hres last with ⟨hpin, -⟩ | ⟨-, t, -, heq⟩ | ⟨-, -, heq⟩
  · exact Option.some.inj (hpin.symm.trans hsha)
  · rw [show r.nextStep target last = .ok none from h] at heq
    cases heq
  · -- the last hop would be to a target, and there is one
    rw [show r.nextStep target last = .ok none from h] at heq
    obtain rfl : none = target := Except.ok.inj heq
    cases hsha

/-- The commit has been reached by a sound step to a release, so its base is no older. -/
def OnRelease (r : Repo C) (c : C) : Prop :=
  ∃ t b, isReleaseTag t = true ∧ (t, c) ∈ r.tags ∧ r.base c = some b

/-- Without a pin each commit of the walk is the start or carries a release. -/
theorem start_or_onRelease {r : Repo C} {head c : C} (hsound : r.StepsSound none head)
    (hreach : Relation.ReflTransGen (r.Moves none) head c) : c = head ∨ r.OnRelease c := by
  have hres : r.Resolvable none := nofun
  rcases Relation.ReflTransGen.cases_tail hreach with hstart | ⟨d, hd, step, hstep, hcheckout⟩
  · exact .inl hstart
  · rcases nextStep_cases hres d with ⟨hpin, -⟩ | ⟨hpin, t, ht, heq⟩ | ⟨-, -, heq⟩
    · cases hpin
    · rw [heq] at hstep
      obtain rfl : t = step := Option.some.inj (Except.ok.inj hstep)
      have hs := hsound d hd hpin t ht
      have htag : r.tagCommit? t = some c := hs.resolves ▸ hcheckout
      obtain ⟨b, hb, -⟩ := (hs.progress c htag).resolve_left (by simp [pinned])
      exact .inr ⟨t, b, ht.ahead.release, tagCommit?_eq_some.mp htag, hb⟩
    · rw [heq] at hstep
      cases hstep

/-- Where an unpinned walk has arrived at a release, that commit carries a latest one. -/
theorem latest_of_onRelease {r : Repo C} {c : C} (h : r.OnRelease c) (harrived : r.Arrived none c) :
    ∃ m, r.IsLatest m ∧ (m, c) ∈ r.tags := by
  obtain ⟨t, b, -, htag, hb⟩ := h
  exact ⟨b, isLatest_base (laterTags_of_arrived harrived) hb, tagged_base htag hb⟩

/-- The end of an unpinned walk that started without a latest release. -/
theorem latest_of_arrived {r : Repo C} {head last : C} (hsound : r.StepsSound none head)
    (hreach : Relation.ReflTransGen (r.Moves none) head last) (harrived : r.Arrived none last)
    (hreleased : ∃ t ∈ r.tagNames, isReleaseTag t = true)
    (hnot : ¬ ∃ m, r.IsLatest m ∧ r.HasRelease head m) : ∃ m, r.IsLatest m ∧ (m, last) ∈ r.tags := by
  rcases start_or_onRelease hsound hreach with rfl | hon
  · -- at the start the base would be a latest release that HEAD contains
    have hlater := laterTags_of_arrived harrived
    cases hb : r.base last with
    | none =>
      obtain ⟨t, hlisted, ht⟩ := hreleased
      rw [no_release_of_base_none hlater hb hlisted] at ht
      cases ht
    | some b => exact absurd ⟨b, isLatest_base hlater hb, hasRelease_of_base hb⟩ hnot
  · exact latest_of_onRelease hon harrived

theorem destination_of_walk {r : Repo C} {target : Option String} {head last : C} {path : List C}
    (hres : r.Resolvable target) (hsound : r.StepsSound target head)
    (hw : Walks (r.Arrived target) (r.Moves target) head path last) :
    r.Destination target head last := by
  refine ⟨fun sha => last_eq_pinned hres hw.done_last, ?_, ?_, ?_⟩
  · rintro rfl ⟨m, hm, hcontained⟩
    have harrived : r.Arrived none head := by
      apply arrived_of_no_next
      intro t ht
      exact (hsound head .refl (by simp [pinned]) t ht).start rfl rfl m hcontained hm
    exact last_eq_of_arrived hw harrived
  · rintro rfl hreleased hnot
    exact latest_of_arrived hsound (hw.reachable_of_mem hw.last_mem) hw.done_last hreleased hnot
  · rintro rfl hunreleased
    have harrived : r.Arrived none head := by
      apply arrived_of_no_next
      intro t ht
      have hrelease := ht.ahead.release
      rw [hunreleased t ht.ahead.listed] at hrelease
      cases hrelease
    exact last_eq_of_arrived hw harrived

theorem neverOlder_of_walk {r : Repo C} {head last : C} {path : List C}
    (hsound : r.StepsSound none head)
    (hw : Walks (r.Arrived none) (r.Moves none) head path last) : r.NeverOlder path := by
  have hres : r.Resolvable none := nofun
  intro c hc t hstep m hm
  rcases nextStep_cases hres c with ⟨hpin, -⟩ | ⟨hpin, u, hu, heq⟩ | ⟨-, -, heq⟩
  · cases hpin
  · rw [heq] at hstep
    obtain rfl : u = t := Option.some.inj (Except.ok.inj hstep)
    exact (hsound c (hw.reachable_of_mem hc) hpin u hu).newest rfl m hm
  · rw [heq] at hstep
    cases hstep

/-- A walk whose steps are sound stops, without visiting a commit twice, at its destination. -/
theorem updateWalk_of_stepsSound {r : Repo C} {target : Option String} {head : C}
    (hres : r.Resolvable target) (hsound : r.StepsSound target head) : r.UpdateWalk target head := by
  obtain ⟨path, last, hw⟩ : ∃ path last, Walks (r.Arrived target) (r.Moves target) head path last := by
    apply exists_walk_of_measure (r.hopsLeft (r.pinned target))
    intro c hreach
    rcases arrived_or_moves hres hsound hreach with harrived | ⟨c', hc'⟩
    · exact .inl harrived
    · exact .inr ⟨c', hc', hopsLeft_lt_of_moves hres hsound hreach hc'⟩
  have hnodup : path.Nodup :=
    hw.nodup fun v w hreach hs => hopsLeft_lt_of_moves hres hsound hreach hs
  refine ⟨path, last, hw, hnodup, destination_of_walk hres hsound hw, ?_⟩
  rintro rfl
  exact neverOlder_of_walk hsound hw

/-! ## Soundness of the steps is needed -/

/-- No other ref shares the name of a release. -/
def Unshadowed (r : Repo C) : Prop :=
  ∀ u ∈ r.tagNames, isReleaseTag u = true → r.checkout u = r.tagCommit? u

theorem moves_unique {r : Repo C} {target : Option String} {c d d' : C}
    (h : r.Moves target c d) (h' : r.Moves target c d') : d = d' := by
  obtain ⟨step, hstep, hcheckout⟩ := h
  obtain ⟨step', hstep', hcheckout'⟩ := h'
  rw [hstep] at hstep'
  obtain rfl : step = step' := Option.some.inj (Except.ok.inj hstep')
  exact Option.some.inj (hcheckout.symm.trans hcheckout')

/-- There is one next release. -/
theorem isNext_unique {r : Repo C} {pin pin' : Option C} {c c' : C} {t u : String}
    (ht : r.IsNext pin c t) (hu : r.IsNext pin' c' u) (htu : r.Ahead pin' c' t)
    (hut : r.Ahead pin c u) : t = u := by
  have hkey : versionKey t = versionKey u := le_antisymm (ht.oldest u hut) (hu.oldest t htu)
  by_contra hne
  have hbefore := ht.first u hut hkey.symm (Ne.symm hne)
  have hafter := hu.first t htu hkey hne
  exact absurd hafter (not_pair_sublist_swap r.tagNames_nodup hbefore)

theorem nextStep_of_isNext {r : Repo C} {c : C} {t : String} (h : r.IsNext none c t) :
    r.nextStep none c = .ok (some t) := by
  have hres : r.Resolvable none := nofun
  rcases nextStep_cases hres c with ⟨hpin, -⟩ | ⟨-, u, hu, heq⟩ | ⟨-, hlater, -⟩
  · cases hpin
  · rw [isNext_unique h hu h.ahead hu.ahead, heq]
  · have hmem := mem_laterTags.mpr h.ahead
    rw [show r.laterTags none c = [] from hlater] at hmem
    cases hmem

/-- At the commit of the release just taken the base is as new, or the walk would stay there. -/
theorem progress_of_updateWalk {r : Repo C} {head c c' last : C} {path : List C} {t : String}
    (hclash : r.Unshadowed)
    (hw : Walks (r.Arrived none) (r.Moves none) head path last) (hnodup : path.Nodup)
    (holder : r.NeverOlder path) (hreach : Relation.ReflTransGen (r.Moves none) head c)
    (ht : r.IsNext none c t) (hc' : r.tagCommit? t = some c') :
    ∃ b, r.base c' = some b ∧ versionKey t ≤ versionKey b := by
  have hmoves : ∀ {d : C}, r.IsNext none d t → r.Moves none d c' := by
    intro d hd
    exact ⟨t, nextStep_of_isNext hd, (hclash t hd.ahead.listed hd.ahead.release).trans hc'⟩
  have hmem : c' ∈ path :=
    hw.mem_of_reachable (fun _ _ => not_moves_of_arrived) (fun _ _ _ => moves_unique)
      (hreach.tail (hmoves ht))
  by_contra hno
  -- then `t` is ahead of its own commit
  have hahead : r.Ahead none c' t := by
    refine ⟨ht.ahead.listed, ht.ahead.release, ?_, ht.ahead.contained⟩
    cases hb : r.base c' with
    | none => rfl
    | some b =>
      apply newerThan_some.mpr
      by_contra hle
      exact hno ⟨b, hb, not_lt.mp hle⟩
  obtain ⟨u, rest, hlater⟩ := List.exists_cons_of_ne_nil (List.ne_nil_of_mem (mem_laterTags.mpr hahead))
  have hu : r.IsNext none c' u := isNext_of_laterTags hlater
  -- the release taken there is not older than `t`, which the commit carries
  have hkey : versionKey t ≤ versionKey u := by
    apply holder c' hmem u (nextStep_of_isNext hu) t
    exact ⟨ht.ahead.release, c', tagCommit?_eq_some.mp hc', r.contains_refl c'⟩
  have hut : r.Ahead none c u := by
    refine ⟨hu.ahead.listed, hu.ahead.release, ?_, hu.ahead.contained⟩
    have hnewer := ht.ahead.newer
    cases hb : r.base c with
    | none => rfl
    | some b =>
      rw [hb, newerThan_some] at hnewer
      exact newerThan_some.mpr (hnewer.trans_le hkey)
  obtain rfl : t = u := isNext_unique ht hu hahead hut
  exact hw.not_step_self (fun _ _ => not_moves_of_arrived) (fun _ _ _ => moves_unique) hnodup hmem
    (hmoves hu)

/-- Where no other ref shares a release's name, the steps of a good unpinned walk are sound. -/
theorem stepsSound_of_updateWalk {r : Repo C} {head : C}
    (hclash : r.Unshadowed)
    (h : r.UpdateWalk none head) : r.StepsSound none head := by
  obtain ⟨path, last, hw, hnodup, hdest, holder⟩ := h
  intro c hreach _ t ht
  have hmem : c ∈ path :=
    hw.mem_of_reachable (fun _ _ => not_moves_of_arrived) (fun _ _ _ => moves_unique) hreach
  refine ⟨hclash t ht.ahead.listed ht.ahead.release, fun c' hc' => .inr ?_, fun _ m hm => ?_, ?_⟩
  · exact progress_of_updateWalk hclash hw hnodup (holder rfl) hreach ht hc'
  · exact holder rfl c hmem t (nextStep_of_isNext ht) m hm
  · rintro - rfl m hm hlatest
    -- a walk that stays at its start has no next release there
    have hlast : last = c := hdest.stays rfl ⟨m, hlatest, hm⟩
    have harrived : r.Arrived none c := hlast ▸ hw.done_last
    rw [Arrived, nextStep_of_isNext ht] at harrived
    cases harrived

/-- Sound steps make a good walk; without a pin and without shadowed releases nothing less does. -/
theorem updateWalk_iff_stepsSound {r : Repo C} {target : Option String} {head : C}
    (hres : r.Resolvable target) :
    (r.StepsSound target head → r.UpdateWalk target head) ∧
      (target = none → r.Unshadowed → (r.UpdateWalk target head ↔ r.StepsSound target head)) := by
  refine ⟨updateWalk_of_stepsSound hres, ?_⟩
  rintro rfl hclash
  exact ⟨stepsSound_of_updateWalk hclash, updateWalk_of_stepsSound hres⟩

end Repo

/-! ## Two repositories -/

/-- Two commits, the second one the child of the first. -/
def twoCommits : History (Fin 2) where
  parents c := if c = 1 then [0] else []
  depth := Fin.val
  parents_depth := by decide

theorem twoCommits_cases (c : Fin 2) : c = 0 ∨ c = 1 := by decide +revert

theorem twoCommits_antisymm : ∀ c b : Fin 2, twoCommits.contains c b = true →
    twoCommits.contains b c = true → b = c := by decide

/-- Each commit is a release. -/
def twoReleases : Repo (Fin 2) where
  toHistory := twoCommits
  objects := []
  tags := [("v1.0.0", 0), ("v1.1.0", 1)]
  refs := [("origin/main", 1)]
  describeExact c := if c = 0 then some "v1.0.0" else some "v1.1.0"
  describeNearest c := if c = 0 then some "v1.0.0" else some "v1.1.0"
  tags_nodup := by decide
  describeExact_tag c t h := by
    rcases twoCommits_cases c with rfl | rfl <;> cases h <;> decide
  describeExact_none c h := by
    rcases twoCommits_cases c with rfl | rfl <;> cases h
  describeNearest_tag c t h := by
    refine ⟨c, ?_, twoCommits.contains_refl c, fun _ b _ => twoCommits_antisymm c b⟩
    rcases twoCommits_cases c with rfl | rfl <;> cases h <;> decide
  describeNearest_none c h := by
    rcases twoCommits_cases c with rfl | rfl <;> cases h

/-- The second commit carries a release and its candidate, and `git describe` names the candidate. -/
def candidateTagged : Repo (Fin 2) where
  toHistory := twoCommits
  objects := []
  tags := [("v1.0.0", 1), ("v1.0.0-rc1", 1)]
  refs := [("origin/main", 1)]
  describeExact c := if c = 0 then none else some "v1.0.0-rc1"
  describeNearest c := if c = 0 then none else some "v1.0.0-rc1"
  tags_nodup := by decide
  describeExact_tag c t h := by
    rcases twoCommits_cases c with rfl | rfl <;> cases h
    decide
  describeExact_none c h t ht := by
    rcases twoCommits_cases c with rfl | rfl
    · simp at ht
    · cases h
  describeNearest_tag c t h := by
    refine ⟨c, ?_, twoCommits.contains_refl c, fun _ b _ => twoCommits_antisymm c b⟩
    rcases twoCommits_cases c with rfl | rfl <;> cases h
    decide
  describeNearest_none c h t a ha := by
    rcases twoCommits_cases c with rfl | rfl
    · obtain rfl : a = 1 := by simp at ha; omega
      decide
    · cases h

namespace Repo

/-- The walk from the first release to the second. -/
theorem twoReleases_updateWalk : twoReleases.UpdateWalk none 0 := by
  have hres : twoReleases.Resolvable none := nofun
  apply (updateWalk_iff_stepsSound hres).1
  intro c _ _ t ht
  have hmem : t ∈ twoReleases.laterTags none c := mem_laterTags.mpr ht.ahead
  rcases twoCommits_cases c with rfl | rfl
  · rw [show twoReleases.laterTags none 0 = ["v1.1.0"] by decide] at hmem
    obtain rfl := List.mem_singleton.mp hmem
    have hhas : ∀ m, twoReleases.HasRelease 0 m → m = "v1.0.0" := by
      rintro m ⟨-, a, ha, hcontains⟩
      rcases twoCommits_cases a with rfl | rfl
      · simpa [twoReleases] using ha
      · exact absurd hcontains (by decide)
    refine ⟨by decide, fun c' hc' => .inr ⟨"v1.1.0", ?_, le_refl _⟩, fun _ m hm => ?_,
      fun _ _ m hm hlatest => ?_⟩
    · obtain rfl : 1 = c' := Option.some.inj hc'
      decide
    · rw [hhas m hm]
      decide
    · rw [hhas m hm] at hlatest
      exact absurd (hlatest.newest "v1.1.0" (by decide) (by decide)) (by decide)
  · rw [show twoReleases.laterTags none 1 = [] by decide] at hmem
    cases hmem

/-- Where `git describe` names the candidate, the walk checks out the release for ever. -/
theorem candidateTagged_not_updateWalk :
    candidateTagged.Resolvable none ∧ ¬ candidateTagged.UpdateWalk none 0 := by
  refine ⟨nofun, ?_⟩
  rintro ⟨path, last, hw, -⟩
  have harrived := hw.done_last
  revert harrived
  rcases twoCommits_cases last with rfl | rfl
  · decide
  · decide

end Repo

end OpenHost.Update
