import OpenHost.Library.Runs
import Mathlib.Data.List.Basic

/-!
# The lock of exclusive operations

A change of the primary domain and a change of the archive exclude each other.  The task of an
operation owns the lock, and the request that has started it awaits a shield around the task.  Where
the request is cancelled the task goes on, and a failure is logged in place of the answer.

Nothing cancels the tasks themselves: `asyncio.shield` keeps the request's cancellation from them,
and `wait_for_operations` is awaited before the event loop is closed.
-/

namespace OpenHost.Web

/-! ## A task and its request -/

/-- How the coroutine of an operation has ended. -/
inductive OperationEnd where
  | returned
  | raised
  deriving DecidableEq, Repr

structure OperationTask where
  outcome : Option OperationEnd := none
  /-- `_operation_done` has run, and the task has left `_operation_tasks`. -/
  discarded : Bool := false
  /-- The task is in `_detached_tasks`. -/
  detached : Bool := false
  /-- The request awaits the shield. -/
  awaited : Bool := true
  /-- How often the request has raised the failure. -/
  raised : Nat := 0
  /-- How often the failure is in the log. -/
  logged : Nat := 0
  deriving DecidableEq, Repr

namespace OperationTask

variable (t : OperationTask)

def done : Bool := t.outcome.isSome

/-- `task.exception()` is there. -/
def failed : Bool := t.outcome = some .raised

def logDetachedFailure : OperationTask :=
  if t.failed then { t with logged := t.logged + 1 } else t

/-- `_operation_done` -/
def operationDone : OperationTask :=
  if t.detached then logDetachedFailure { t with discarded := true, detached := false }
  else { t with discarded := true }

def detachOperation : OperationTask :=
  if t.done then t.logDetachedFailure else { t with detached := true }

/-- The request goes on with what the task has returned or raised. -/
def answer : OperationTask :=
  { t with awaited := false, raised := t.raised + t.failed.toNat }

/-- `CancelledError` is raised where the request awaits the shield. -/
def cancel : OperationTask := detachOperation { t with awaited := false }

end OperationTask

/-! ## The event loop -/

structure Operations where
  /-- `operation_lock` -/
  locked : Bool := false
  /-- The tasks that have been started; `_operation_tasks` holds those not yet discarded. -/
  tasks : List OperationTask := []
  deriving DecidableEq, Repr

inductive OperationEvent where
  /-- A request calls `start_exclusive_operation`. -/
  | start
  /-- It does, and `create_task` raises. -/
  | startFails
  /-- The operation ends, and its task with it. -/
  | ends (i : Nat) (outcome : OperationEnd)
  /-- The event loop calls `_operation_done`. -/
  | callback (i : Nat)
  /-- The request is woken up by its shield. -/
  | answer (i : Nat)
  | cancel (i : Nat)
  deriving DecidableEq, Repr

namespace Operations

def moveTask (s : Operations) (i : Nat) (move : OperationTask → Option OperationTask) :
    Option Operations :=
  (s.tasks[i]?.bind move).map fun t => { s with tasks := s.tasks.set i t }

def next (s : Operations) : OperationEvent → Option Operations
  -- the lock is free, so that `acquire` does not wait
  | .start => some (if s.locked then s else { locked := true, tasks := s.tasks ++ [{}] })
  | .startFails => if s.locked then none else some s
  | .ends i outcome =>
      -- the lock is released before anything else can happen on the loop
      (s.moveTask i fun t => if t.done then none else some { t with outcome := some outcome }).map
        fun s => { s with locked := false }
  | .callback i =>
      s.moveTask i fun t => if t.done && !t.discarded then some t.operationDone else none
  | .answer i =>
      -- the callback of the shield comes after `_operation_done`, which was there first
      s.moveTask i fun t => if t.awaited && t.discarded then some t.answer else none
  | .cancel i => s.moveTask i fun t => if t.awaited then some t.cancel else none

end Operations

abbrev OperationRuns (s : Operations) : Prop :=
  Reach (fun s e s' => Operations.next s e = some s') (fun _ _ => True) {} s

/-! ## What is reported of a task -/

namespace OperationTask

/-- How often the failure of the operation is told, to the one who asked for it or in the log. -/
def reports (t : OperationTask) : Nat := t.raised + t.logged

/-- A failure has been reported where the request is gone and the callback is not still to do it. -/
structure Inv (t : OperationTask) : Prop where
  reports : t.reports = (t.failed && !t.awaited && !t.detached).toNat
  running : t.done = false → t.discarded = false ∧ (t.awaited || t.detached) = true
  detached : t.detached = true → t.awaited = false ∧ t.discarded = false

variable {t : OperationTask}

theorem inv_start : Inv {} := by
  refine ⟨rfl, fun _ => ⟨rfl, rfl⟩, ?_⟩
  intro hdetached
  cases hdetached

@[simp]
theorem logDetachedFailure_reports (t : OperationTask) :
    t.logDetachedFailure.reports = t.reports + t.failed.toNat := by
  unfold logDetachedFailure
  cases hfailed : t.failed with
  | true => rfl
  | false => rfl

/-- Logging changes nothing but the log. -/
@[simp]
theorem logDetachedFailure_fields (t : OperationTask) :
    t.logDetachedFailure.outcome = t.outcome ∧ t.logDetachedFailure.discarded = t.discarded ∧
      t.logDetachedFailure.detached = t.detached ∧ t.logDetachedFailure.awaited = t.awaited := by
  unfold logDetachedFailure
  split <;> exact ⟨rfl, rfl, rfl, rfl⟩

/-- What is not done has not failed. -/
theorem failed_of_not_done (h : t.done = false) : t.failed = false := by
  have hnone : t.outcome = none := by simpa [done] using h
  simp [failed, hnone]

/-- A failure of which nothing is left to be done is reported where it has to be. -/
theorem Inv.logged (h : t.reports = 0) (hdone : t.done = true) (hdetached : t.detached = false)
    (hawaited : t.awaited = false) : t.logDetachedFailure.Inv := by
  obtain ⟨houtcome, -, hdet, haw⟩ := logDetachedFailure_fields t
  have hfailed : t.logDetachedFailure.failed = t.failed := by rw [failed, failed, houtcome]
  have hstill : t.logDetachedFailure.done = true := by rw [done, houtcome]; exact hdone
  refine ⟨?_, ?_, ?_⟩
  · rw [logDetachedFailure_reports, h, hfailed, haw, hdet, hawaited, hdetached]
    simp
  · intro hrunning
    rw [hstill] at hrunning
    cases hrunning
  · intro hno
    rw [hdet, hdetached] at hno
    cases hno

theorem Inv.ends (h : t.Inv) (hdone : t.done = false) (outcome : OperationEnd) :
    Inv { t with outcome := some outcome } := by
  have hreports : t.reports = 0 := by
    rw [h.reports, failed_of_not_done hdone, Bool.false_and, Bool.false_and]
    rfl
  refine ⟨hreports.trans ?_, ?_, h.detached⟩
  · -- the request awaits it still, or the callback is to log it
    have hnobody : (!t.awaited && !t.detached) = false := by
      rw [← Bool.not_or, (h.running hdone).2]
      rfl
    dsimp only
    rw [Bool.and_assoc, hnobody, Bool.and_false]
    rfl
  · intro hrunning
    cases hrunning

theorem Inv.operationDone (h : t.Inv) (hdone : t.done = true) : t.operationDone.Inv := by
  rw [OperationTask.operationDone]
  by_cases hdetached : t.detached = true
  · rw [if_pos hdetached]
    have hreports := h.reports
    rw [hdetached, Bool.not_true, Bool.and_false] at hreports
    exact Inv.logged hreports hdone rfl (h.detached hdetached).1
  · rw [if_neg hdetached]
    refine ⟨h.reports, ?_, fun hno => absurd hno hdetached⟩
    intro hrunning
    rw [show t.done = false from hrunning] at hdone
    cases hdone

/-- A request that is gone puts its task into `_detached_tasks`; the callback takes it out. -/
theorem Inv.not_detached (h : t.Inv) (hseen : t.awaited = true ∨ t.discarded = true) :
    t.detached = false := by
  cases hdetached : t.detached with
  | false => rfl
  | true =>
    obtain ⟨hawaited, hdiscarded⟩ := h.detached hdetached
    rw [hawaited, hdiscarded] at hseen
    simp at hseen

theorem Inv.done_of_discarded (h : t.Inv) (hdiscarded : t.discarded = true) : t.done = true := by
  cases hdone : t.done with
  | true => rfl
  | false =>
    rw [(h.running hdone).1] at hdiscarded
    cases hdiscarded

/-- While the request waits, nothing has been reported. -/
theorem Inv.awaited (h : t.Inv) (hawaited : t.awaited = true) :
    t.detached = false ∧ t.reports = 0 := by
  refine ⟨h.not_detached (Or.inl hawaited), ?_⟩
  rw [h.reports, hawaited, Bool.not_true, Bool.and_false, Bool.false_and]
  rfl

theorem Inv.answer (h : t.Inv) (hawaited : t.awaited = true) (hdiscarded : t.discarded = true) :
    t.answer.Inv := by
  obtain ⟨hdetached, hreports⟩ := h.awaited hawaited
  have hdone : t.done = true := h.done_of_discarded hdiscarded
  refine ⟨?_, fun hrunning => ?_, fun hno => ?_⟩
  · have hnone : t.raised = 0 ∧ t.logged = 0 := Nat.add_eq_zero_iff.mp hreports
    simp [OperationTask.answer, OperationTask.reports, failed, hnone, hdetached]
  · rw [show t.done = false from hrunning] at hdone
    cases hdone
  · rw [show t.detached = true from hno] at hdetached
    cases hdetached

theorem Inv.cancel (h : t.Inv) (hawaited : t.awaited = true) : t.cancel.Inv := by
  obtain ⟨hdetached, hreports⟩ := h.awaited hawaited
  have hkept : OperationTask.done { t with awaited := false } = t.done := rfl
  rw [OperationTask.cancel, OperationTask.detachOperation, hkept]
  by_cases hdone : t.done = true
  · rw [if_pos hdone]
    refine Inv.logged ?_ ?_ ?_ rfl
    · exact hreports
    · exact hdone
    · exact hdetached
  · rw [if_neg hdone]
    have hrunning := h.running (Bool.not_eq_true _ ▸ hdone)
    -- the callback is still to come, and finds the task detached
    refine ⟨hreports.trans ?_, fun _ => ⟨hrunning.1, rfl⟩, fun _ => ⟨rfl, hrunning.1⟩⟩
    dsimp only
    rw [Bool.not_true, Bool.and_false]
    rfl

/-- Only the end of an operation makes its task done. -/
theorem done_operationDone (t : OperationTask) : t.operationDone.done = t.done := by
  unfold OperationTask.operationDone
  split
  · exact congrArg Option.isSome (logDetachedFailure_fields _).1
  · rfl

theorem done_cancel (t : OperationTask) : t.cancel.done = t.done := by
  unfold OperationTask.cancel OperationTask.detachOperation
  split
  · exact congrArg Option.isSome (logDetachedFailure_fields _).1
  · rfl

end OperationTask

/-! ## What every step preserves -/

namespace Operations

/-- The lock is held by the one operation that runs. -/
structure Inv (s : Operations) : Prop where
  tasks : ∀ t ∈ s.tasks, t.Inv
  owner : s.tasks.countP (fun t => !t.done) = s.locked.toNat

variable {s s' : Operations}

theorem moveTask_cases {i : Nat} {move : OperationTask → Option OperationTask}
    (h : s.moveTask i move = some s') : ∃ t t', s.tasks[i]? = some t ∧ move t = some t' ∧
      s' = { s with tasks := s.tasks.set i t' } := by
  obtain ⟨t', hmove, rfl⟩ := Option.map_eq_some_iff.mp h
  obtain ⟨t, ht, hmove⟩ := Option.bind_eq_some_iff.mp hmove
  exact ⟨t, t', ht, hmove, rfl⟩

/-- One task becomes another one, and the number of those that run goes with it. -/
theorem countP_moved {tasks : List OperationTask} {i : Nat} {t : OperationTask}
    (ht : tasks[i]? = some t) (t' : OperationTask) :
    (tasks.set i t').countP (fun t => !t.done) + (!t.done).toNat =
      tasks.countP (fun t => !t.done) + (!t'.done).toNat := by
  induction tasks generalizing i with
  | nil => cases ht
  | cons head tail ih =>
    cases i with
    | zero =>
      obtain rfl := Option.some.inj ht
      rw [List.set_cons_zero, List.countP_cons, List.countP_cons]
      cases head.done <;> cases t'.done <;> simp
    | succ i =>
      have htail := ih (show tail[i]? = some t from ht)
      rw [List.set_cons_succ, List.countP_cons, List.countP_cons]
      omega

/-- A task moves on, still running or not as it was. -/
theorem Inv.moved (h : s.Inv) {i : Nat} {t t' : OperationTask} (ht : s.tasks[i]? = some t)
    (hinv : t'.Inv) (hdone : t'.done = t.done) : Inv { s with tasks := s.tasks.set i t' } := by
  refine ⟨fun task htask => ?_, ?_⟩
  · rcases List.mem_or_eq_of_mem_set htask with hold | rfl
    · exact h.tasks task hold
    · exact hinv
  · have hcount := countP_moved ht t'
    rw [hdone] at hcount
    exact (Nat.add_right_cancel hcount).trans h.owner

theorem inv_next {e : OperationEvent} (h : s.Inv) (hnext : s.next e = some s') : s'.Inv := by
  cases e with
  | start =>
    obtain rfl := Option.some.inj hnext
    by_cases hlocked : s.locked = true
    · rw [if_pos hlocked]
      exact h
    · rw [if_neg hlocked]
      have hfree : s.locked = false := Bool.not_eq_true _ ▸ hlocked
      refine ⟨fun task htask => ?_, ?_⟩
      · rcases List.mem_append.mp htask with hold | hnew
        · exact h.tasks task hold
        · obtain rfl := List.mem_singleton.mp hnew
          exact OperationTask.inv_start
      · rw [List.countP_append, h.owner, hfree]
        rfl
  | startFails =>
    rw [next] at hnext
    split at hnext
    · cases hnext
    · obtain rfl := Option.some.inj hnext
      exact h
  | ends i outcome =>
    obtain ⟨moved, hmoved, rfl⟩ := Option.map_eq_some_iff.mp hnext
    obtain ⟨t, t', ht, hmove, rfl⟩ := moveTask_cases hmoved
    split at hmove
    · cases hmove
    · rename_i hrunning
      obtain rfl := Option.some.inj hmove
      have hdone : t.done = false := Bool.not_eq_true _ ▸ hrunning
      refine ⟨fun task htask => ?_, ?_⟩
      · rcases List.mem_or_eq_of_mem_set htask with hold | rfl
        · exact h.tasks task hold
        · exact (h.tasks t (List.mem_of_getElem? ht)).ends hdone outcome
      · -- it was the one that ran
        have hcount := countP_moved ht { t with outcome := some outcome }
        have hbound : s.locked.toNat ≤ 1 := Bool.toNat_le _
        rw [h.owner, hdone] at hcount
        have hended : (OperationTask.done { t with outcome := some outcome }) = true := rfl
        rw [hended] at hcount
        simp only [Bool.not_false, Bool.toNat_true, Bool.not_true, Bool.toNat_false] at hcount ⊢
        omega
  | callback i =>
    obtain ⟨t, t', ht, hmove, rfl⟩ := moveTask_cases hnext
    split at hmove
    · rename_i hdone
      obtain rfl := Option.some.inj hmove
      rw [Bool.and_eq_true] at hdone
      exact h.moved ht ((h.tasks t (List.mem_of_getElem? ht)).operationDone hdone.1)
        (OperationTask.done_operationDone t)
    · cases hmove
  | answer i =>
    obtain ⟨t, t', ht, hmove, rfl⟩ := moveTask_cases hnext
    split at hmove
    · rename_i hwoken
      obtain rfl := Option.some.inj hmove
      rw [Bool.and_eq_true] at hwoken
      exact h.moved ht ((h.tasks t (List.mem_of_getElem? ht)).answer hwoken.1 hwoken.2) rfl
    · cases hmove
  | cancel i =>
    obtain ⟨t, t', ht, hmove, rfl⟩ := moveTask_cases hnext
    split at hmove
    · rename_i hawaited
      obtain rfl := Option.some.inj hmove
      exact h.moved ht ((h.tasks t (List.mem_of_getElem? ht)).cancel hawaited)
        (OperationTask.done_cancel t)
    · cases hmove

theorem inv_of_runs (h : OperationRuns s) : s.Inv := by
  apply h.invariant Inv
  · exact ⟨fun _ ht => absurd ht List.not_mem_nil, rfl⟩
  · exact fun _ _ _ hs _ hnext => inv_next hs hnext

end Operations

/-- The lock is held exactly while an operation runs, and there is never more than one.  It is free
when `wait_for_operations` finds no task left. -/
theorem locked_of_operationRuns (s : Operations) (h : OperationRuns s) :
    s.tasks.countP (fun t => !t.done) = s.locked.toNat ∧
      ((∀ t ∈ s.tasks, t.discarded = true) → s.locked = false) := by
  have hinv := Operations.inv_of_runs h
  refine ⟨hinv.owner, fun hdiscarded => ?_⟩
  -- a task that runs has not been discarded
  have hnone : s.tasks.countP (fun t => !t.done) = 0 := by
    rw [List.countP_eq_zero]
    intro t ht hrunning
    rw [(hinv.tasks t ht).done_of_discarded (hdiscarded t ht)] at hrunning
    cases hrunning
  cases hlocked : s.locked with
  | false => rfl
  | true =>
    rw [hinv.owner, hlocked] at hnone
    cases hnone

/-- The failure of an operation is reported once at most, and a success never.  Once the callback of
its task has run and its request no longer waits, whether it has been answered or cancelled and
whichever came first, the failure has been reported. -/
theorem reported_of_operationRuns (s : Operations) (h : OperationRuns s) :
    ∀ t ∈ s.tasks, t.reports ≤ t.failed.toNat ∧
      (t.discarded = true → t.awaited = false → t.reports = t.failed.toNat) := by
  intro t ht
  have hinv := (Operations.inv_of_runs h).tasks t ht
  refine ⟨?_, fun hdiscarded hawaited => ?_⟩
  · rw [hinv.reports]
    cases t.failed <;> cases t.awaited <;> cases t.detached <;> decide
  · have hdetached : t.detached = false := hinv.not_detached (Or.inr hdiscarded)
    rw [hinv.reports, hawaited, hdetached, Bool.not_false, Bool.and_true, Bool.and_true]

/-- A request is cancelled while its operation runs, and another one is refused.  The operation
fails, as does the next one, whose request is answered while a third operation runs. -/
def exampleOperations : Option Operations :=
  runAll Operations.next (fun _ _ => True) {}
    [.start, .start, .cancel 0, .ends 0 .raised, .start, .callback 0, .ends 1 .raised, .start,
      .callback 1, .answer 1]

theorem locked_of_exampleOperations : ∃ s, exampleOperations = some s ∧ s.tasks.length = 3 ∧
    s.tasks.countP (fun t => !t.done) = s.locked.toNat := by
  have hrun : exampleOperations.map (fun s => s.tasks.length) = some 3 := by decide
  obtain ⟨s, hs, hlength⟩ := Option.map_eq_some_iff.mp hrun
  exact ⟨s, hs, hlength, (locked_of_operationRuns s (reach_of_run hs)).1⟩

theorem reported_of_exampleOperations : ∃ s t, exampleOperations = some s ∧ t ∈ s.tasks ∧
    t.failed = true ∧ t.reports = t.failed.toNat := by
  have hrun : exampleOperations.map (fun s => s.tasks[0]?) =
      some (some ⟨some .raised, true, false, false, 0, 1⟩) := by decide
  obtain ⟨s, hs, hfirst⟩ := Option.map_eq_some_iff.mp hrun
  have ht := List.mem_of_getElem? hfirst
  exact ⟨s, _, hs, ht, rfl, (reported_of_operationRuns s (reach_of_run hs) _ ht).2 rfl rfl⟩

end OpenHost.Web
