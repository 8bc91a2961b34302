import OpenHost.Upstream.UpdateGate

/-!
# What an update may deploy

As long as no update is disturbed between its pull and the end of its review, the tree holds
nothing that calls for an approval and has none, whenever something is built from it.  A pull that
fails after the tree has moved is enough to break this.
-/

namespace OpenHost.Gate

open Manifest
open Raises (Exc Result)
open Services (Tables)

section

variable {lim : Json.Limits} {rt : Runtime} {appId : String}

/-! ## What a step leaves -/

variable (lim rt appId) in
/-- What a task under review goes back to is fine. -/
def Task.Holds (s : Site) : Task → Prop
  | .review _ _ prePullSha => ∀ sha ∈ prePullSha, Fine lim rt appId s sha
  | .resetHard _ sha => Fine lim rt appId s sha
  | _ => True

variable (lim rt appId) in
/-- What holds in every state of an undisturbed run: at most one update is between its pull and the
end of its review, it can go back to a tree that is fine, and the tree is fine when there is none. -/
structure Kept (s : Server) : Prop where
  stored : Stored lim s.shared.tables
  alone : (s.tasks.filter Task.reviews).length ≤ 1
  saved : ∀ t ∈ s.tasks, t.Holds lim rt appId s.shared
  quiet : s.Quiet → Fine lim rt appId s.shared s.shared.tree

theorem Task.holds_of_not_reviews {s : Site} {t : Task} (h : t.reviews = false) :
    t.Holds lim rt appId s := by
  cases t with
  | review => cases h
  | resetHard => cases h
  | _ => trivial

/-- The step changes neither the tree nor what it is compared with, and puts nothing under
review. -/
structure Calm (s s' : Site) (new : List Task) : Prop where
  tables : s'.tables = s.tables
  tree : s'.tree = s.tree
  deployed : s'.deployed = s.deployed
  new : ∀ t ∈ new, t.reviews = false

/-- The tasks that leave the tree and the deployed manifest alone. -/
def Task.calm : Task → Bool
  | .pull _ _ _ _ | .review _ _ _ | .resetHard _ _ | .start | .restart => false
  | _ => true

theorem Task.not_reviews_of_calm {t : Task} (h : t.calm = true) : t.reviews = false := by
  cases t with
  | review => cases h
  | resetHard => cases h
  | _ => rfl

theorem calm_step {t : Task} (h : t.calm = true) (c : Answer) (s : Site) :
    Calm s (t.step lim rt appId c s).1 (t.step lim rt appId c s).2 := by
  cases t with
  | reload r =>
    refine ⟨rfl, rfl, rfl, ?_⟩
    dsimp only [Task.step]
    split
    · simp
    · split <;> simp [Task.reviews]
  | head r row =>
    dsimp only [Task.step]
    split <;> exact ⟨rfl, rfl, rfl, by simp [Task.reviews]⟩
  | claim continueOauth row =>
    dsimp only [Task.step]
    split
    · exact ⟨rfl, rfl, rfl, by simp⟩
    · split
      · refine ⟨rfl, rfl, rfl, ?_⟩
        cases continueOauth <;> simp [Task.reviews]
      · exact ⟨rfl, rfl, rfl, by simp [Task.reviews]⟩
  | spawn row =>
    refine ⟨rfl, rfl, rfl, ?_⟩
    dsimp only [Task.step]
    cases c.raises <;> simp [Task.reviews]
  | record repoPath =>
    dsimp only [Task.step]
    split
    · split
      · cases c.wrote <;> exact ⟨rfl, rfl, rfl, by simp⟩
      · exact ⟨rfl, rfl, rfl, by simp [Task.reviews]⟩
    · split <;> exact ⟨rfl, rfl, rfl, by simp [Task.reviews]⟩
    · split <;> exact ⟨rfl, rfl, rfl, by simp [Task.reviews]⟩
  | run => exact ⟨rfl, rfl, rfl, by simp [Task.step]⟩
  | rename newPath =>
    dsimp only [Task.step]
    cases c.raises <;> exact ⟨rfl, rfl, rfl, by simp [Task.reviews]⟩
  | renameDirs newPath prior =>
    dsimp only [Task.step]
    split <;> exact ⟨rfl, rfl, rfl, by simp [Task.reviews]⟩
  | renameRecord newPath prior =>
    dsimp only [Task.step]
    split
    · exact ⟨rfl, rfl, rfl, by simp⟩
    · refine ⟨rfl, rfl, rfl, ?_⟩
      cases wasRunning prior <;> simp [Task.reviews]
  | pull => cases h
  | review => cases h
  | resetHard => cases h
  | start => cases h
  | restart => cases h

/-- The review of another update is over when one is under review. -/
theorem others_of_reviews {before after : List Task} {t : Task}
    (halone : ((before ++ t :: after).filter Task.reviews).length ≤ 1) (ht : t.reviews = true) :
    ∀ u ∈ before ++ after, u.reviews = false := by
  rw [List.filter_append, List.filter_cons, if_pos ht, List.length_append,
    List.length_cons] at halone
  have hbefore : before.filter Task.reviews = [] := List.eq_nil_of_length_eq_zero (by omega)
  have hafter : after.filter Task.reviews = [] := List.eq_nil_of_length_eq_zero (by omega)
  intro u hu
  rcases List.mem_append.mp hu with hu | hu
  · exact Bool.eq_false_iff.mpr (List.filter_eq_nil_iff.mp hbefore u hu)
  · exact Bool.eq_false_iff.mpr (List.filter_eq_nil_iff.mp hafter u hu)

theorem filter_reviews_eq_nil {tasks : List Task} (h : ∀ t ∈ tasks, t.reviews = false) :
    tasks.filter Task.reviews = [] :=
  List.filter_eq_nil_iff.mpr fun t ht => Bool.eq_false_iff.mp (h t ht)

section

variable {s : Site} {before after new : List Task}

/-- A step among tasks none of which has an update under review. -/
theorem kept_of_others {s' : Site} (hothers : ∀ u ∈ before ++ after, u.reviews = false)
    (hstored : Stored lim s'.tables) (halone : new.length ≤ 1)
    (hsaved : ∀ u ∈ new, u.Holds lim rt appId s')
    (hquiet : (∀ u ∈ new, u.reviews = false) → Fine lim rt appId s' s'.tree) :
    Kept lim rt appId ⟨s', before ++ new ++ after⟩ where
  stored := hstored
  alone := by
    have hbefore := filter_reviews_eq_nil fun u hu => hothers u (List.mem_append_left _ hu)
    have hafter := filter_reviews_eq_nil fun u hu => hothers u (List.mem_append_right _ hu)
    rw [List.filter_append, List.filter_append, hbefore, hafter, List.nil_append, List.append_nil]
    exact (List.length_filter_le _ _).trans halone
  saved := Pool.forall_tasks_of_step (fun u hu => Task.holds_of_not_reviews (hothers u hu)) hsaved
  quiet h := hquiet fun u hu => h u (List.mem_append_left _ (List.mem_append_right _ hu))

/-- A calm step leaves it all. -/
theorem kept_of_calm {s' : Site} {t : Task} (h : Kept lim rt appId ⟨s, before ++ t :: after⟩)
    (ht : t.reviews = false) (hcalm : Calm s s' new) :
    Kept lim rt appId ⟨s', before ++ new ++ after⟩ := by
  have hfine : ∀ c, Fine lim rt appId s c → Fine lim rt appId s' c := by
    intro c hc
    rwa [Fine, hcalm.deployed, hcalm.tables]
  have hholds : ∀ u : Task, u.Holds lim rt appId s → u.Holds lim rt appId s' := by
    intro u hu
    cases u with
    | review => exact fun sha hsha => hfine sha (hu sha hsha)
    | resetHard => exact hfine _ hu
    | _ => trivial
  constructor
  · rw [hcalm.tables]
    exact h.stored
  · have halone := h.alone
    rw [List.filter_append, List.filter_cons, ht, if_neg Bool.false_ne_true] at halone
    rwa [List.filter_append, List.filter_append, filter_reviews_eq_nil hcalm.new, List.append_nil]
  · apply Pool.forall_tasks_of_step
    · exact fun u hu => hholds u (h.saved u (Pool.mem_of_mem_others hu))
    · exact fun u hu => Task.holds_of_not_reviews (hcalm.new u hu)
  · intro hquiet
    rw [hcalm.tree]
    refine hfine _ (h.quiet fun u hu => ?_)
    rcases List.mem_append.mp hu with hu | hu
    · exact hquiet u (List.mem_append_left _ (List.mem_append_left _ hu))
    · rcases List.mem_cons.mp hu with rfl | hu
      · exact ht
      · exact hquiet u (List.mem_append_right _ hu)

end

/-! ## The steps that move the tree -/

section

variable {s : Site} {before after : List Task}

theorem Fine.of_frame {s s' : Site} {c : Checkout} (h : Fine lim rt appId s c)
    (hdeployed : s'.deployed = s.deployed) (htables : s'.tables = s.tables) :
    Fine lim rt appId s' c := by
  rwa [Fine, hdeployed, htables]

theorem Site.pulled_of_ne {path : String} (h : path ≠ s.treePath) (moved : Option (Option String)) :
    s.pulled path moved = s := by
  unfold Site.pulled Site.treeAt
  rw [if_neg h]

theorem Site.pulled_frame (path : String) (moved : Option (Option String)) :
    (s.pulled path moved).deployed = s.deployed ∧ (s.pulled path moved).tables = s.tables := by
  unfold Site.pulled
  split <;> exact ⟨rfl, rfl⟩

/-- The tree after a pull is the one before it, or what was pulled. -/
theorem fine_pulled {path : String} {moved : Option (Option String)}
    (hmoved : ∀ toml ∈ moved, Fine lim rt appId s ⟨toml, false⟩)
    (htree : Fine lim rt appId s s.tree) :
    Fine lim rt appId s (s.pulled path moved).tree := by
  unfold Site.pulled
  split
  · next toml _ => exact hmoved toml rfl
  · exact htree

/-- What a pull leaves: the update under review, or a tree that is fine. -/
theorem pull_cases {r : ReloadRequest} {row : Row} {prePullSha : Option Checkout} {token : Bool}
    {c : Answer} {out : Site × List Task}
    (hout : (Task.pull r row prePullSha token).step lim rt appId c s = out)
    (htree : Fine lim rt appId s s.tree)
    (hmoved : c.pull ≠ .done ∨ c.raises = true →
      ∀ toml ∈ c.moved, Fine lim rt appId s ⟨toml, false⟩) :
    (out.1.deployed = s.deployed ∧ out.1.tables = s.tables) ∧
      (out.2 = [.review r row prePullSha] ∨
        Fine lim rt appId s out.1.tree ∧ (out.2 = [] ∨ out.2 = [.pull r row prePullSha true])) := by
  have hframe := s.pulled_frame row.repoPath c.moved
  subst hout
  dsimp only [Task.step]
  cases hpull : c.pull with
  | done =>
    by_cases hpath : row.repoPath = s.treePath
    · rw [if_pos hpath]
      refine ⟨hframe, ?_⟩
      cases hraises : c.raises with
      | false => exact .inl rfl
      | true => exact .inr ⟨fine_pulled (hmoved (.inr hraises)) htree, .inl rfl⟩
    · rw [if_neg hpath, Site.pulled_of_ne hpath]
      exact ⟨⟨rfl, rfl⟩, .inr ⟨htree, .inl rfl⟩⟩
  | again =>
    refine ⟨hframe, .inr ⟨fine_pulled (hmoved (.inl (by simp [hpull]))) htree, ?_⟩⟩
    cases c.raises || token with
    | true => exact .inl rfl
    | false => exact .inr rfl
  | redirected =>
    exact ⟨hframe, .inr ⟨fine_pulled (hmoved (.inl (by simp [hpull]))) htree, .inl rfl⟩⟩
  | failed =>
    exact ⟨hframe, .inr ⟨fine_pulled (hmoved (.inl (by simp [hpull]))) htree, .inl rfl⟩⟩

variable {c : Answer} {out : Site × List Task}

theorem kept_pull {r : ReloadRequest} {row : Row} {prePullSha : Option Checkout} {token : Bool}
    (h : Kept lim rt appId ⟨s, before ++ .pull r row prePullSha token :: after⟩)
    (hok : TaskOk lim rt appId ⟨s, before ++ .pull r row prePullSha token :: after⟩ c
      (.pull r row prePullSha token))
    (hout : (Task.pull r row prePullSha token).step lim rt appId c s = out) :
    Kept lim rt appId ⟨out.1, before ++ out.2 ++ after⟩ := by
  obtain ⟨hquiet, hsha, hmoved⟩ := hok
  have hothers : ∀ u ∈ before ++ after, u.reviews = false := fun u hu =>
    hquiet u (Pool.mem_of_mem_others hu)
  obtain ⟨⟨hdeployed, htables⟩, hnew⟩ := pull_cases hout (h.quiet hquiet) hmoved
  have hstored : Stored lim out.1.tables := htables ▸ h.stored
  rcases hnew with hnew | ⟨htree, hnew | hnew⟩
  · rw [hnew]
    refine kept_of_others hothers hstored le_rfl ?_ ?_
    · rw [List.forall_mem_singleton]
      exact fun sha hin => (hsha sha hin).of_frame hdeployed htables
    · exact fun hall => absurd (hall _ List.mem_cons_self).symm Bool.false_ne_true
  · rw [hnew]
    exact kept_of_others hothers hstored (Nat.zero_le 1) (by simp)
      fun _ => htree.of_frame hdeployed htables
  · rw [hnew]
    exact kept_of_others hothers hstored le_rfl (List.forall_mem_singleton.mpr trivial)
      fun _ => htree.of_frame hdeployed htables

/-- A review without an approval changes nothing, and goes back at most to where the request came
from. -/
theorem review_frame {r : ReloadRequest} {row : Row} {prePullSha : Option Checkout}
    (happrove : r.approveNewPermissions = false)
    (hout : (Task.review r row prePullSha).step lim rt appId c s = out) :
    out.1 = s ∧ out.2.length ≤ 1 ∧
      ∀ u ∈ out.2, u.reviews = false ∨ ∃ sha ∈ prePullSha, u = .resetHard row sha := by
  subst hout
  dsimp only [Task.step]
  rw [happrove, tablesAfter_of_not_approve, Bool.or_false]
  split
  · exact ⟨rfl, by simp, by simp⟩
  · cases c.raises <;> exact ⟨rfl, by simp, by simp [Task.reviews]⟩
  · refine ⟨rfl, ?_, ?_⟩
    · cases prePullSha <;> simp
    · intro u hu
      obtain ⟨sha, hsha, rfl⟩ := List.mem_map.mp hu
      exact .inr ⟨sha, Option.mem_toList.mp hsha, rfl⟩

/-- A review that sees what it is to see: what calls for an approval is rolled back. -/
theorem review_cases {r : ReloadRequest} {row : Row} {prePullSha : Option Checkout}
    (happrove : r.approveNewPermissions = false) (hpath : row.repoPath = s.treePath)
    (hsha : prePullSha.isSome = true) (hprevious : Previous rt row.manifestRaw (some s.deployed))
    (hreviewable : ∀ m, s.tree.parse rt = .ok m → Reviewable lim rt m (some s.deployed))
    (hstored : Stored lim s.tables) (hid : appId ≠ "")
    (hout : (Task.review r row prePullSha).step lim rt appId c s = out) :
    Fine lim rt appId s s.tree ∨ ∃ sha ∈ prePullSha, .resetHard row sha ∈ out.2 := by
  subst hout
  have hrepo : s.treeAt row.repoPath = some s.tree := if_pos hpath
  dsimp only [Task.step]
  rw [happrove, tablesAfter_of_not_approve, Bool.or_false, hrepo, Option.map_some]
  cases hparse : s.tree.parse rt with
  | error e => exact .inl (.inr fun m hm => by rw [hparse] at hm; cases hm)
  | ok m =>
    obtain ⟨review, hreview, hnone⟩ :=
      gate_spec hparse hprevious (hreviewable m hparse) hstored hid
    rw [hreview]
    cases review with
    | none =>
      refine .inl (.inr fun m' hm' => ?_)
      obtain rfl := Except.ok.inj (hparse.symm.trans hm')
      exact hnone rfl
    | some review =>
      obtain ⟨sha, rfl⟩ := Option.isSome_iff_exists.mp hsha
      exact .inr ⟨sha, rfl, List.mem_cons_self⟩

/-- A review with the approval: nothing is asked for, and the tree is approved. -/
theorem approve_cases {r : ReloadRequest} {row : Row} {prePullSha : Option Checkout}
    (happrove : r.approveNewPermissions = true) (hstored : Stored lim s.tables)
    (hout : (Task.review r row prePullSha).step lim rt appId c s = out) :
    Stored lim out.1.tables ∧ out.1.tree.approved = true ∧ out.2.length ≤ 1 ∧
      ∀ u ∈ out.2, u.reviews = false := by
  have hstored' : ∀ raw, Stored lim (tablesAfter lim rt appId
      ((s.treeAt row.repoPath).map (Checkout.parse rt)) true raw s.tables) :=
    fun raw => stored_tablesAfter hstored
  subst hout
  dsimp only [Task.step]
  rw [happrove, Bool.or_true]
  split
  · exact ⟨hstored' _, rfl, by simp, by simp⟩
  · cases c.raises <;> exact ⟨hstored' _, rfl, by simp, by simp [Task.reviews]⟩
  · next review hreview => cases review_eq_none_of_approve hreview

theorem kept_review {r : ReloadRequest} {row : Row} {prePullSha : Option Checkout}
    (h : Kept lim rt appId ⟨s, before ++ .review r row prePullSha :: after⟩) (hid : appId ≠ "")
    (hok : TaskOk lim rt appId ⟨s, before ++ .review r row prePullSha :: after⟩ c
      (.review r row prePullSha))
    (hout : (Task.review r row prePullSha).step lim rt appId c s = out) :
    Kept lim rt appId ⟨out.1, before ++ out.2 ++ after⟩ := by
  have hothers := others_of_reviews h.alone (t := .review r row prePullSha) rfl
  cases happrove : r.approveNewPermissions with
  | true =>
    obtain ⟨hstored, happroved, hlength, hnew⟩ := approve_cases happrove h.stored hout
    exact kept_of_others hothers hstored hlength
      (fun u hu => Task.holds_of_not_reviews (hnew u hu)) fun _ => .inl happroved
  | false =>
    obtain ⟨hsite, hlength, hnew⟩ := review_frame happrove hout
    rw [hsite]
    refine kept_of_others hothers h.stored hlength (fun u hu => ?_) fun hall => ?_
    · rcases hnew u hu with hreviews | ⟨sha, hin, rfl⟩
      · exact Task.holds_of_not_reviews hreviews
      · exact h.saved _ (List.mem_append_right _ List.mem_cons_self) sha hin
    · by_contra hfine
      obtain ⟨hpath, hsha, hprevious, hreviewable⟩ := hok happrove hfine
      obtain hfine' | ⟨sha, -, hin⟩ :=
        review_cases happrove hpath hsha hprevious hreviewable h.stored hid hout
      · exact hfine hfine'
      · exact Bool.false_ne_true (hall _ hin).symm

theorem kept_resetHard {row : Row} {sha : Checkout}
    (h : Kept lim rt appId ⟨s, before ++ .resetHard row sha :: after⟩)
    (hok : TaskOk lim rt appId ⟨s, before ++ .resetHard row sha :: after⟩ c (.resetHard row sha))
    (hout : (Task.resetHard row sha).step lim rt appId c s = out) :
    Kept lim rt appId ⟨out.1, before ++ out.2 ++ after⟩ := by
  have hothers := others_of_reviews h.alone (t := .resetHard row sha) rfl
  have hsha : Fine lim rt appId s sha := h.saved _ (List.mem_append_right _ List.mem_cons_self)
  subst hout
  dsimp only [Task.step]
  split
  · next hfails =>
    refine kept_of_others hothers h.stored (Nat.zero_le 1) (by simp) fun _ => ?_
    -- a rollback that fails leaves what is fine already
    by_contra hfine
    obtain ⟨hraises, hpath⟩ := hok hfine
    rw [hraises, decide_eq_false (not_not.mpr hpath)] at hfails
    cases hfails
  · exact kept_of_others hothers h.stored (Nat.zero_le 1) (by simp) fun _ => hsha.of_frame rfl rfl

/-- What is deployed leaves the tree fine, when it comes from the tree or was deployed before. -/
theorem kept_deploy {t : Task} {m : Result AppManifest}
    (h : Kept lim rt appId ⟨s, before ++ t :: after⟩)
    (hquiet : Server.Quiet ⟨s, before ++ t :: after⟩)
    (hm : ∀ m', m = .ok m' → m' = s.deployed ∨ s.tree.parse rt = .ok m')
    (hout : deploy m s = out) : Kept lim rt appId ⟨out.1, before ++ out.2 ++ after⟩ := by
  have hothers : ∀ u ∈ before ++ after, u.reviews = false := fun u hu =>
    hquiet u (Pool.mem_of_mem_others hu)
  have hfine := h.quiet hquiet
  subst hout
  cases m with
  | error e =>
    exact kept_of_others hothers h.stored (Nat.zero_le 1) (by simp [deploy])
      fun _ => hfine.of_frame rfl rfl
  | ok m =>
    refine kept_of_others hothers h.stored le_rfl (List.forall_mem_singleton.mpr trivial) ?_
    intro _
    rcases hm m rfl with rfl | hparse
    · exact hfine.of_frame rfl rfl
    · -- it is the tree's manifest that is deployed
      refine .inr fun m' hm' => .inl ?_
      exact Except.ok.inj (hm'.symm.trans hparse)

end

/-! ## Runs -/

theorem Request.not_reviews (r : Request) : r.task.reviews = false := by cases r <;> rfl

section

variable {s t : Server} {a : Action}

theorem Site.treeAt_of_some {s : Site} {path : String} {c : Checkout} (h : s.treeAt path = some c) :
    s.treeAt path = some s.tree := by
  unfold Site.treeAt at h ⊢
  split at h
  · next hpath => exact if_pos hpath
  · cases h

theorem parse_of_treeAt {s : Site} {path : String} {m : AppManifest}
    (h : ((s.treeAt path).getD ⟨none, false⟩).parse rt = .ok m) : s.tree.parse rt = .ok m := by
  cases htree : s.treeAt path with
  | none =>
    rw [htree] at h
    cases h
  | some c =>
    rwa [Site.treeAt_of_some htree] at h

theorem restartManifest_of_previous {s : Site} {m : AppManifest}
    (h : Previous rt s.row.manifestRaw (some m)) : restartManifest rt s = .ok m := by
  unfold restartManifest
  generalize s.row.manifestRaw = raw at h ⊢
  cases h with
  | valid hne hparse => simp [Services.truthy, Option.filter, hne, hparse]

/-- One step of a task keeps what is kept. -/
theorem kept_task {shared : Site} {before after : List Task} {task : Task} {c : Answer}
    (h : Kept lim rt appId ⟨shared, before ++ task :: after⟩) (hid : appId ≠ "")
    (hok : TaskOk lim rt appId ⟨shared, before ++ task :: after⟩ c task) :
    Kept lim rt appId ⟨(task.step lim rt appId c shared).1,
      before ++ (task.step lim rt appId c shared).2 ++ after⟩ := by
  cases hcalm : task.calm with
  | true => exact kept_of_calm h (Task.not_reviews_of_calm hcalm) (calm_step hcalm c shared)
  | false =>
    cases task with
    | pull r row prePullSha token => exact kept_pull h hok rfl
    | review r row prePullSha => exact kept_review h hid hok rfl
    | resetHard row sha => exact kept_resetHard h hok rfl
    | start =>
      dsimp only [Task.step]
      cases c.raises with
      -- a start that raises leaves what one with an invalid manifest leaves
      | true => exact kept_deploy (m := .error (.valueError "")) h hok (by simp) rfl
      | false => exact kept_deploy h hok (fun m hm => .inr (parse_of_treeAt hm)) rfl
    | restart =>
      obtain ⟨hquiet, hprevious⟩ := hok
      dsimp only [Task.step]
      cases c.raises with
      | true => exact kept_deploy (m := .error (.valueError "")) h hquiet (by simp) rfl
      | false =>
        rw [restartManifest_of_previous hprevious]
        exact kept_deploy h hquiet (fun m hm => .inl (Except.ok.inj hm).symm) rfl
    | _ => cases hcalm

/-- One step keeps what is kept. -/
theorem kept_step (h : Kept lim rt appId s) (hid : appId ≠ "") (hok : Undisturbed lim rt appId s a)
    (hstep : Step lim rt appId s a t) : Kept lim rt appId t := by
  obtain ⟨shared, tasks⟩ := s
  cases a with
  | request r =>
    obtain rfl := Option.some.inj hstep
    constructor
    · exact h.stored
    · rw [List.filter_append, List.filter_cons, r.not_reviews, if_neg Bool.false_ne_true,
        List.filter_nil, List.append_nil]
      exact h.alone
    · intro u hu
      rcases List.mem_append.mp hu with hu | hu
      · exact h.saved u hu
      · exact Task.holds_of_not_reviews (List.mem_singleton.mp hu ▸ r.not_reviews)
    · exact fun hquiet => h.quiet fun u hu => hquiet u (List.mem_append_left _ hu)
  | task i c =>
    obtain ⟨before, task, after, rfl, hget, rfl⟩ := Pool.stepAt_cases hstep
    exact kept_task h hid (hok task hget)
  | reboot status needsBuild =>
    obtain rfl := Option.some.inj hstep
    have hfine := h.quiet hok
    have hkept : Kept lim rt appId ⟨shared.setStatus status,
        [] ++ (needsBuild.map recoverTask).toList ++ []⟩ := by
      refine kept_of_others (by simp) h.stored ?_ ?_ fun _ => hfine.of_frame rfl rfl
      · cases needsBuild <;> simp
      · cases needsBuild with
        | none => simp
        | some needsBuild => cases needsBuild <;> simp [recoverTask, Task.Holds]
    rwa [List.append_nil, List.nil_append] at hkept

end

variable {s₀ s t : Server} {a : Action}

variable (lim rt appId) in
/-- Nothing is going on, and the tree is fine: it is the one that was deployed last, say. -/
structure Idle (s : Server) : Prop where
  tasks : s.tasks = []
  stored : Stored lim s.shared.tables
  tree : Fine lim rt appId s.shared s.shared.tree

/-- Every undisturbed run keeps what is kept. -/
theorem kept_of_reach (hstart : Idle lim rt appId s₀) (hid : appId ≠ "")
    (hreach : Reach (Step lim rt appId) (Undisturbed lim rt appId) s₀ s) : Kept lim rt appId s := by
  refine hreach.invariant (Kept lim rt appId) ?_ fun _ _ _ h hok hstep => kept_step h hid hok hstep
  have htasks := hstart.tasks
  exact ⟨hstart.stored, by simp [htasks], by simp [htasks], fun _ => hstart.tree⟩

/-- In an undisturbed run nothing is deployed that calls for an approval and has none. -/
theorem approved_of_reach (hstart : Idle lim rt appId s₀) (hid : appId ≠ "")
    (hreach : Reach (Step lim rt appId) (Undisturbed lim rt appId) s₀ s)
    (hok : Undisturbed lim rt appId s a) : Approved lim rt appId s a := by
  have hkept := kept_of_reach hstart hid hreach
  rintro i c t m approved rfl hget hdeploys
  have htask := hok t hget
  cases hdeploys with
  | start hraises htree hm =>
    have htree' : s.shared.tree = _ :=
      Option.some.inj ((Site.treeAt_of_some htree).symm.trans htree)
    rw [← htree'] at hm ⊢
    -- no update is under review
    exact (hkept.quiet htask).imp_right fun hfine => hfine m hm
  | restart hraises hm =>
    obtain ⟨-, hprevious⟩ := htask
    exact .inr (.inl (Except.ok.inj (hm.symm.trans (restartManifest_of_previous hprevious))))

end

/-! ## A pull that fails after the tree has moved -/

def adminGrant : Toml.Table := [("key", .str "ADMIN")]

def adminText : String := askingText "\x7b key = 'ADMIN' \x7d"

/-- Python, as far as the two manifests go. -/
def notesRuntime : Runtime :=
  .reading
    [(keyText, askingTables (.table keyGrant)), (adminText, askingTables (.table adminGrant))]

theorem exists_parse_deployed : ∃ m, parseManifestFromString notesRuntime keyText = .ok m ∧
    allManifestPermissionsV2 m = [⟨"example.org/secrets", .table keyGrant⟩] :=
  exists_parse_asking (by decide) List.lookup_cons_self (by decide)

theorem adminText_ne_keyText : adminText ≠ keyText := by decide +kernel

theorem exists_parse_pulled : ∃ m, parseManifestFromString notesRuntime adminText = .ok m ∧
    allManifestPermissionsV2 m = [⟨"example.org/secrets", .table adminGrant⟩] := by
  refine exists_parse_asking (by decide) ?_ (by decide)
  rw [List.lookup_cons, beq_eq_false_iff_ne.mpr adminText_ne_keyText]
  exact List.lookup_cons_self

/-- The app that has asked for one key. -/
def notesSite (m : AppManifest) (toml : String) : Site where
  row := ⟨.running, some keyText, "/data/notes/repo"⟩
  recordedApproved := false
  tree := ⟨some toml, false⟩
  treePath := "/data/notes/repo"
  tables := notesTables
  deployed := m

/-- The permission to the other key is new. -/
theorem not_unremarkable {m m' : AppManifest}
    (hm : allManifestPermissionsV2 m = [⟨"example.org/secrets", .table keyGrant⟩])
    (hm' : allManifestPermissionsV2 m' = [⟨"example.org/secrets", .table adminGrant⟩])
    {lim : Json.Limits} {rt : Runtime} {appId : String} :
    ¬Unremarkable lim rt appId m m' notesTables := by
  rintro (rfl | ⟨hdeclared, -⟩)
  · simp [hm, keyGrant, adminGrant] at hm'
  · rw [hm', List.forall_mem_singleton, hm] at hdeclared
    rcases hdeclared with ⟨row, hrow, -⟩ | ⟨q, hq, -, hsame⟩
    · simp [notesTables, notesRows] at hrow
    · rw [List.mem_singleton.mp hq] at hsame
      rcases hsame with heq | ⟨j, j', hj, hj', heq⟩
      · simp [keyGrant, adminGrant] at heq
      · obtain rfl := Option.some.inj hj
        obtain rfl := Option.some.inj hj'
        have hkey : Json.ofString "DB" = Json.ofString "ADMIN" := by
          simpa [Json.Value.sorted, Json.sortedMembers] using heq
        exact absurd hkey (by decide)

/-- An update fetches the manifest that asks for the other key, its submodules cannot be fetched,
and the app is reloaded without an update. -/
def movedRun : List Action :=
  [.request (.reload true false), .task 0 {}, .task 0 {},
    .task 0 { pull := .failed, moved := some (some adminText) },
    .request (.reload false false), .task 0 {}, .task 0 {}, .task 0 {}]

theorem reach_moved (m : AppManifest) :
    Reach (Step Json.defaultLimits notesRuntime "notes1") (fun _ _ => True)
      ⟨notesSite m keyText, []⟩
      ⟨(notesSite m adminText).setStatus .building, [.record "/data/notes/repo"]⟩ := by
  have hrun : runAll (next Json.defaultLimits notesRuntime "notes1") (fun _ _ => True)
      ⟨notesSite m keyText, []⟩ movedRun =
        some ⟨(notesSite m adminText).setStatus .building, [.record "/data/notes/repo"]⟩ := rfl
  exact reach_of_run hrun

/-- The state in which the worker is about to deploy what the tree holds. -/
def recorded (m m' : AppManifest) (toml : String) : Server where
  shared := { notesSite m toml with row := ⟨.building, some m'.rawToml, "/data/notes/repo"⟩ }
  tasks := [.start]

theorem step_record {m m' : AppManifest} {toml : String}
    (hm' : parseManifestFromString notesRuntime toml = .ok m') :
    Step Json.defaultLimits notesRuntime "notes1"
      ⟨(notesSite m toml).setStatus .building, [.record "/data/notes/repo"]⟩ (.task 0 {})
      (recorded m m' toml) := by
  simp [Step, next, Pool.stepAt, Task.step, Site.treeAt, Site.setStatus, notesSite, Checkout.parse,
    recorded, hm']

theorem deploys_recorded {m m' : AppManifest} {toml : String}
    (hm' : parseManifestFromString notesRuntime toml = .ok m') :
    Deploys notesRuntime (recorded m m' toml).shared .start {} m' false := by
  have htree : (recorded m m' toml).shared.treeAt "/data/notes/repo" = some ⟨some toml, false⟩ := rfl
  exact .start rfl htree hm'

theorem idle_notes {m : AppManifest} (hm : parseManifestFromString notesRuntime keyText = .ok m) :
    Idle Json.defaultLimits notesRuntime "notes1" ⟨notesSite m keyText, []⟩ where
  tasks := rfl
  stored := stored_notesTables
  tree := .inr fun _ hm' => .inl (Except.ok.inj (hm'.symm.trans hm))

theorem approved_reload : ∃ m, parseManifestFromString notesRuntime keyText = .ok m ∧
    Deploys notesRuntime (recorded m m keyText).shared .start {} m false ∧
    Approved Json.defaultLimits notesRuntime "notes1" (recorded m m keyText) (.task 0 {}) := by
  obtain ⟨m, hm, -⟩ := exists_parse_deployed
  refine ⟨m, hm, deploys_recorded hm, approved_of_reach (idle_notes hm) (by decide) ?_ ?_⟩
  · have hreload : Reach (Step Json.defaultLimits notesRuntime "notes1")
        (Undisturbed Json.defaultLimits notesRuntime "notes1") ⟨notesSite m keyText, []⟩
        ⟨notesSite m keyText, [.reload ⟨false, false, false⟩]⟩ :=
      .step .refl (a := .request (.reload false false)) trivial rfl
    have hclaim := hreload.step (a := Action.task 0 {})
      (u := Pool.mk (notesSite m keyText) [Task.claim false (notesSite m keyText).row])
      (by rintro t ⟨⟩; trivial) rfl
    have hspawn := hclaim.step (a := Action.task 0 {})
      (u := Pool.mk ((notesSite m keyText).setStatus .building)
        [Task.spawn (notesSite m keyText).row])
      (by rintro t ⟨⟩; trivial) rfl
    have hrecord := hspawn.step (a := Action.task 0 {})
      (u := Pool.mk ((notesSite m keyText).setStatus .building) [Task.record "/data/notes/repo"])
      (by rintro t ⟨⟩; trivial) rfl
    exact hrecord.step (by rintro t ⟨⟩; trivial) (step_record hm)
  · rintro t ⟨⟩
    exact List.forall_mem_singleton.mpr rfl

/-- The manifest that asks for the other key is deployed, and nobody has approved it. -/
theorem not_approved_moved : ∃ m, parseManifestFromString notesRuntime keyText = .ok m ∧
    Idle Json.defaultLimits notesRuntime "notes1" ⟨notesSite m keyText, []⟩ ∧
    ∃ s, Reach (Step Json.defaultLimits notesRuntime "notes1") (fun _ _ => True)
        ⟨notesSite m keyText, []⟩ s ∧
      ∃ a, ¬Approved Json.defaultLimits notesRuntime "notes1" s a := by
  obtain ⟨m, hm, hdeployed⟩ := exists_parse_deployed
  obtain ⟨m', hm', hpulled⟩ := exists_parse_pulled
  refine ⟨m, hm, idle_notes hm, recorded m m' adminText, ?_, .task 0 {}, fun h => ?_⟩
  · exact (reach_moved m).step (a := .task 0 {}) trivial (step_record hm')
  · obtain happroved | hunremarkable := h 0 {} .start m' false rfl rfl (deploys_recorded hm')
    · exact absurd happroved Bool.false_ne_true
    · exact not_unremarkable hdeployed hpulled hunremarkable

end OpenHost.Gate
