import OpenHost.Library.Runs

/-!
# The apply lock of the dashboard

`apply_update` and `_launch_apply` of `settings.py`.  A process of the dashboard keeps the lock once it
has launched an update, because the walk stops openhost; the walk is a unit of its own, which can end
before it comes to that.
-/

namespace OpenHost.Update

/-! ## Requests and units -/

/-- How far the request is that has the lock. -/
inductive Flight where
  | idle
  /-- `apply_update`, before it hands off. -/
  | checking
  /-- `_launch_apply` waits for the agent. -/
  | launching
  /-- Its handler records the failure and clears the token. -/
  | failing
  deriving DecidableEq

/-- A process of the dashboard. -/
structure Dashboard where
  /-- `_apply_lock.locked()` -/
  locked : Bool
  flight : Flight
  deriving DecidableEq

/-- A process that has just started. -/
def Dashboard.fresh : Dashboard := ⟨false, .idle⟩

/-- How far the walk in the apply unit is. -/
inductive UnitPhase where
  /-- It fetches and checks, with openhost up. -/
  | preflight
  | stopped
  /-- It has restarted openhost. -/
  | restarted
  deriving DecidableEq

/-- The dashboard, which is not there while openhost is stopped, and the apply unit. -/
structure LockState where
  dashboard : Option Dashboard
  applyUnit : Option UnitPhase
  deriving DecidableEq

/-- What comes of `system_agent_apply`. -/
inductive AgentAnswer where
  /-- The unit is launched, or there is one already. -/
  | launched
  /-- Any other failure; the unit may have started all the same. -/
  | fails (started : Bool)

inductive LockAction where
  /-- A request to apply an update. -/
  | request
  /-- A check of the request fails, or it is answered that an update is in progress. -/
  | requestFails
  /-- The launch becomes the background task of the response; whether `apply_is_running` could tell. -/
  | handOff (told : Bool)
  | launch (answer : AgentAnswer)
  /-- The handler of a failed launch, which may raise itself. -/
  | failureHandled (raises : Bool)
  | stopOpenhost
  | restartOpenhost
  /-- The walk ends or dies; `ExecStopPost` starts openhost where it is stopped. -/
  | unitEnds

/-- The request of a dashboard goes on. -/
def Dashboard.next (d : Dashboard) (unitRuns : Bool) : LockAction → Option Dashboard
  | .request =>
      if d.locked then some d
      else some ⟨true, .checking⟩
  | .requestFails => if d.flight = .checking then some ⟨false, .idle⟩ else none
  | .handOff told =>
      if d.flight = .checking && !(told && unitRuns) then some ⟨d.locked, .launching⟩ else none
  | .launch .launched => if d.flight = .launching then some ⟨d.locked, .idle⟩ else none
  | .launch (.fails _) => if d.flight = .launching then some ⟨d.locked, .failing⟩ else none
  | .failureHandled raises =>
      if d.flight = .failing then some ⟨d.locked && raises, .idle⟩ else none
  | .stopOpenhost | .restartOpenhost | .unitEnds => none

/-- The unit after the agent was called. -/
def AgentAnswer.unitAfter (u : Option UnitPhase) : AgentAnswer → Option UnitPhase
  | .launched | .fails true => some (u.getD .preflight)
  | .fails false => u

/-- The next state; `none` where the action is not possible. -/
def LockState.next (s : LockState) (a : LockAction) : Option LockState :=
  match a with
  | .stopOpenhost => if s.applyUnit = some .preflight then some ⟨none, some .stopped⟩ else none
  | .restartOpenhost =>
      if s.applyUnit = some .stopped then some ⟨some .fresh, some .restarted⟩ else none
  | .unitEnds =>
      if s.applyUnit = none then none else some ⟨some (s.dashboard.getD .fresh), none⟩
  | .launch answer =>
      (s.dashboard.bind fun d => d.next s.applyUnit.isSome a).map fun d =>
        ⟨some d, answer.unitAfter s.applyUnit⟩
  | _ =>
      (s.dashboard.bind fun d => d.next s.applyUnit.isSome a).map fun d => ⟨some d, s.applyUnit⟩

def lockStep (s : LockState) (a : LockAction) (s' : LockState) : Prop := s.next a = some s'

/-! ## Who lets go of the lock -/

/-- The lock is held, by no request that is going on. -/
def LockState.heldIdle (s : LockState) : Prop := s.dashboard = some ⟨true, .idle⟩

instance (s : LockState) : Decidable s.heldIdle :=
  inferInstanceAs (Decidable (s.dashboard = some ⟨true, .idle⟩))

/-- No request holds the lock for ever: where no unit runs and no launch is going on it is free. -/
def LockFree (s : LockState) : Prop := s.applyUnit = none → ¬ s.heldIdle

/-- A unit does not end before it stops the openhost that keeps the lock for it; no launch finds a unit
that has already restarted openhost; and the handler of a failed launch does not raise. -/
def LockAction.Releases (s : LockState) : LockAction → Prop
  | .unitEnds => s.applyUnit = some .preflight → ¬ s.heldIdle
  | .launch .launched => s.applyUnit ≠ some .restarted
  | .failureHandled raises => raises = false
  | _ => True

/-- The lock is kept only for a unit that is yet to stop openhost. -/
structure LockSound (s : LockState) : Prop where
  kept : s.heldIdle → s.applyUnit = some .preflight
  stopped : s.applyUnit = some .stopped → s.dashboard = none
  /-- A request that is going on has the lock. -/
  flight : ∀ d, s.dashboard = some d → d.flight ≠ .idle → d.locked = true

/-- What a request of the dashboard leaves. -/
theorem dashboard_next_cases {d d' : Dashboard} {u : Bool} {a : LockAction}
    (hlocked : d.flight ≠ .idle → d.locked = true) (h : d.next u a = some d') :
    (d'.flight ≠ .idle → d'.locked = true) ∧
      (d' = ⟨true, .idle⟩ → d = ⟨true, .idle⟩ ∨ a = .launch .launched ∨ a = .failureHandled true) := by
  obtain ⟨locked, flight⟩ := d
  unfold Dashboard.next at h
  cases a with
  | request =>
    dsimp only at h
    split at h <;> cases h
    · exact ⟨hlocked, fun heq => Or.inl heq⟩
    · exact ⟨fun _ => rfl, nofun⟩
  | requestFails =>
    dsimp only at h
    split at h <;> cases h
    exact ⟨fun hne => absurd rfl hne, nofun⟩
  | handOff told =>
    dsimp only at h
    split at h <;> cases h
    rename_i hchecking
    have hflight : flight = .checking := by
      simpa using (Bool.and_eq_true_iff.mp hchecking).1
    exact ⟨fun _ => hlocked (by rw [hflight]; exact nofun), nofun⟩
  | launch answer =>
    cases answer with
    | launched =>
      dsimp only at h
      split at h <;> cases h
      exact ⟨fun hne => absurd rfl hne, fun _ => Or.inr (Or.inl rfl)⟩
    | fails started =>
      dsimp only at h
      split at h <;> cases h
      rename_i hlaunching
      exact ⟨fun _ => hlocked (by rw [hlaunching]; exact nofun), nofun⟩
  | failureHandled raises =>
    dsimp only at h
    split at h <;> cases h
    refine ⟨fun hne => absurd rfl hne, fun heq => Or.inr (Or.inr ?_)⟩
    have hboth : (locked && raises) = true := congrArg Dashboard.locked heq
    rw [(Bool.and_eq_true_iff.mp hboth).2]
  | stopOpenhost => cases h
  | restartOpenhost => cases h
  | unitEnds => cases h

section

variable {s s' : LockState} {a : LockAction}

/-- The dashboard goes on, with a unit that only a launch can have started. -/
theorem lockSound_of_dashboard {d d' : Dashboard} {u : Option UnitPhase} (hs : LockSound s)
    (hreleases : a.Releases s) (hd : s.dashboard = some d)
    (hnext : d.next s.applyUnit.isSome a = some d')
    (hunit : u = s.applyUnit ∨ u = some .preflight ∧ s.applyUnit = none)
    (hlaunched : a = .launch .launched → u.isSome = true) : LockSound ⟨some d', u⟩ := by
  obtain ⟨hflight, hheld⟩ := dashboard_next_cases (hs.flight d hd) hnext
  have hnot : s.applyUnit ≠ some .stopped := by
    intro hstopped
    have := hs.stopped hstopped
    rw [hd] at this
    cases this
  refine ⟨fun h => ?_, fun h => ?_, fun e he => ?_⟩
  · rcases hheld (Option.some.inj h) with hsame | rfl | rfl
    · have hpre := hs.kept (hd.trans (congrArg some hsame))
      rcases hunit with rfl | ⟨rfl, -⟩
      · exact hpre
      · rfl
    · rcases hunit with rfl | ⟨rfl, -⟩
      · -- a unit that runs has not come to stop openhost
        have hsome := hlaunched rfl
        have hnotRestarted : s.applyUnit ≠ some .restarted := hreleases
        cases hphase : s.applyUnit with
        | none =>
          rw [hphase] at hsome
          cases hsome
        | some phase =>
          cases phase with
          | preflight => rfl
          | stopped => exact absurd hphase hnot
          | restarted => exact absurd hphase hnotRestarted
      · rfl
    · cases hreleases
  · rcases hunit with rfl | ⟨rfl, -⟩
    · exact absurd h hnot
    · cases h
  · cases he
    exact hflight

theorem lockSound_of_step (hs : LockSound s) (hreleases : a.Releases s) (h : lockStep s a s') :
    LockSound s' := by
  unfold lockStep LockState.next at h
  cases a with
  | stopOpenhost =>
    dsimp only at h
    split at h <;> cases h
    exact ⟨nofun, fun _ => rfl, nofun⟩
  | restartOpenhost =>
    dsimp only at h
    split at h <;> cases h
    refine ⟨nofun, nofun, fun d hd hne => ?_⟩
    cases hd
    exact absurd rfl hne
  | unitEnds =>
    dsimp only at h
    split at h <;> cases h
    refine ⟨fun hheld => ?_, nofun, fun d hd hne => ?_⟩
    · cases hdash : s.dashboard with
      | none =>
        rw [LockState.heldIdle, hdash] at hheld
        cases hheld
      | some d =>
        rw [LockState.heldIdle, hdash] at hheld
        have hidle : s.heldIdle := hdash.trans hheld
        exact absurd hidle (hreleases (hs.kept hidle))
    · cases hdash : s.dashboard with
      | none =>
        rw [hdash] at hd
        cases hd
        exact absurd rfl hne
      | some d' =>
        rw [hdash] at hd
        cases hd
        exact hs.flight d' hdash hne
  | launch answer =>
    obtain ⟨d', hbind, rfl⟩ := Option.map_eq_some_iff.mp h
    obtain ⟨d, hd, hnext⟩ := Option.bind_eq_some_iff.mp hbind
    refine lockSound_of_dashboard hs hreleases hd hnext ?_ ?_
    · cases hphase : s.applyUnit with
      | none =>
        cases answer with
        | launched => exact Or.inr ⟨rfl, rfl⟩
        | fails started =>
          cases started with
          | true => exact Or.inr ⟨rfl, rfl⟩
          | false => exact Or.inl rfl
      | some phase =>
        left
        cases answer with
        | launched => rfl
        | fails started => cases started <;> rfl
    · intro heq
      cases heq
      rfl
  | request =>
    obtain ⟨d', hbind, rfl⟩ := Option.map_eq_some_iff.mp h
    obtain ⟨d, hd, hnext⟩ := Option.bind_eq_some_iff.mp hbind
    exact lockSound_of_dashboard hs hreleases hd hnext (Or.inl rfl) nofun
  | requestFails =>
    obtain ⟨d', hbind, rfl⟩ := Option.map_eq_some_iff.mp h
    obtain ⟨d, hd, hnext⟩ := Option.bind_eq_some_iff.mp hbind
    exact lockSound_of_dashboard hs hreleases hd hnext (Or.inl rfl) nofun
  | handOff told =>
    obtain ⟨d', hbind, rfl⟩ := Option.map_eq_some_iff.mp h
    obtain ⟨d, hd, hnext⟩ := Option.bind_eq_some_iff.mp hbind
    exact lockSound_of_dashboard hs hreleases hd hnext (Or.inl rfl) nofun
  | failureHandled raises =>
    obtain ⟨d', hbind, rfl⟩ := Option.map_eq_some_iff.mp h
    obtain ⟨d, hd, hnext⟩ := Option.bind_eq_some_iff.mp hbind
    exact lockSound_of_dashboard hs hreleases hd hnext (Or.inl rfl) nofun

end

/-- An openhost that has just started, with no unit. -/
def LockState.fresh : LockState := ⟨some .fresh, none⟩

/-- As long as every unit that openhost keeps the lock for comes to stop it, the lock is free where no
unit runs and no launch is going on, and the next request is accepted. -/
theorem lockFree_of_reaches {s : LockState}
    (h : Reach lockStep (fun s a => a.Releases s) .fresh s) :
    LockFree s ∧ (s.applyUnit = none → ∀ d, s.dashboard = some d → d.flight = .idle →
      lockStep s .request { s with dashboard := some ⟨true, .checking⟩ }) := by
  have hsound : LockSound s := by
    refine h.invariant LockSound ⟨nofun, nofun, fun d hd hne => ?_⟩
      fun _ _ _ ht hreleases hs => lockSound_of_step ht hreleases hs
    cases hd
    exact absurd rfl hne
  have hfree : LockFree s := by
    intro hnone hheld
    have hpre := hsound.kept hheld
    rw [hnone] at hpre
    cases hpre
  refine ⟨hfree, fun hnone d hd hidle => ?_⟩
  obtain ⟨locked, flight⟩ := d
  obtain rfl : flight = .idle := hidle
  have hunlocked : locked = false := by
    cases locked with
    | false => rfl
    | true => exact absurd hd (hfree hnone)
  unfold lockStep LockState.next
  rw [hunlocked] at hd
  simp only [hd, Option.bind_some, Dashboard.next]
  rfl

/-- A request is launched, and its unit stops openhost and ends. -/
theorem lockFree_of_reaches_applied :
    LockFree ⟨some .fresh, none⟩ ∧ ((none : Option UnitPhase) = none →
      ∀ d, some Dashboard.fresh = some d → d.flight = .idle →
        lockStep ⟨some .fresh, none⟩ .request ⟨some ⟨true, .checking⟩, none⟩) :=
  lockFree_of_reaches (s := ⟨some .fresh, none⟩)
    (.step (.step (.step (.step (.step .refl trivial (a := .request) rfl) trivial
      (a := .handOff true) rfl) nofun (a := .launch .launched) rfl) trivial (a := .stopOpenhost) rfl)
      nofun (a := .unitEnds) rfl)

/-- The lock after a unit that was launched has failed in its preflight. -/
def abandoned : LockState := ⟨some ⟨true, .idle⟩, none⟩

/-- A unit that fails before it stops openhost leaves the lock held, and no request gets it again. -/
theorem abandoned_for_ever :
    Reach lockStep (fun _ _ => True) .fresh abandoned ∧ ¬ LockFree abandoned ∧
      ∀ s, Reach lockStep (fun _ _ => True) abandoned s → s = abandoned := by
  refine ⟨.step (.step (.step (.step .refl trivial (a := .request) rfl) trivial
    (a := .handOff true) rfl) trivial (a := .launch .launched) rfl) trivial (a := .unitEnds) rfl,
    fun h => h rfl rfl, fun s h => ?_⟩
  refine h.invariant (fun s => s = abandoned) rfl ?_
  rintro s a s' rfl - hstep
  unfold lockStep LockState.next at hstep
  cases a with
  | request =>
    cases hstep
    rfl
  | launch answer => cases answer <;> cases hstep
  | handOff told => cases told <;> cases hstep
  | requestFails => cases hstep
  | failureHandled raises => cases hstep
  | stopOpenhost => cases hstep
  | restartOpenhost => cases hstep
  | unitEnds => cases hstep

end OpenHost.Update
