import OpenHost.Apps.Removal

/-!
# No removal is left behind

The claim of a removal is in the row and survives a crash; the worker that carries it out does not.
`check_app_status` looks at the statuses 'running', 'starting' and 'building' only, and every request
turns away from a row that is being removed, `remove_app` included.

`Server.KeepsRemovals` says which steps leave no removal behind: no crash while the row is being
removed, and a removal that fails can say so.  In runs of such steps every row that is being removed
has a worker that will finish it (`attended_of_reach`); a crash at any other point strands the row for
good (`stranded_of_crash`).
-/

namespace OpenHost.Apps

/-! ## The worker finishes -/

/-- The task carries out a removal that has been claimed. -/
def Task.removes : Task → Bool
  | .removeSpawn | .removeSpawnFailed _ => true
  | .removalConnect | .removalRead | .removalTearDown _ | .removalDelete | .removalFailed => true
  | _ => false

/-- The steps that the removal has left, at most. -/
def Task.removalSteps : Task → Nat
  | .removeSpawn => 6
  | .removalConnect => 5
  | .removalRead => 4
  | .removalTearDown _ => 3
  | .removalDelete => 2
  | _ => 1

/-- The thread gets its connection, and a failure of the removal gets into the row. -/
def Task.Recorded (t : Task) (c : TaskAnswer) : Prop :=
  match t with
  | .removalConnect | .removeSpawnFailed _ | .removalFailed => c.raises = none
  | _ => True

instance (t : Task) (c : TaskAnswer) : Decidable (t.Recorded c) := by
  unfold Task.Recorded
  split <;> infer_instance

/-- Within `n` steps of its own the task comes to one after which the row is gone or says 'error',
whatever the world answers and whatever the others do to the row between the steps. -/
def Task.FinishesWithin : Nat → Task → Prop
  | 0, _ => False
  | n + 1, t => ∀ (c : TaskAnswer) (a : App), t.Recorded c → a.status = some .removing →
      ((t.step c a).1.status = none ∨ (t.step c a).1.status = some .error) ∨
        ∃ u ∈ (t.step c a).2, u.FinishesWithin n

/-- One step of a removal: it ends with the row gone or in error, or it goes on. -/
theorem removes_step {t : Task} {c : TaskAnswer} {a : App} (ht : t.removes = true)
    (hc : t.Recorded c) (ha : a.status = some .removing) :
    ((t.step c a).1.status = none ∨ (t.step c a).1.status = some .error) ∨
      ∃ u ∈ (t.step c a).2, u.removes = true ∧ u.removalSteps < t.removalSteps := by
  obtain ⟨row, hrow, -⟩ := Option.map_eq_some_iff.mp ha
  cases t with
  | removeSpawn =>
    refine .inr ?_
    simp only [Task.step]
    cases c.raises <;> simp [Task.removes, Task.removalSteps]
  | removalConnect =>
    have hopen : c.raises = none := hc
    exact .inr ⟨.removalRead, by simp [Task.step, hopen], rfl, by decide⟩
  | removalRead =>
    refine .inr ?_
    simp only [Task.step, hrow]
    split <;> simp [Task.removes, Task.removalSteps]
  | removalTearDown row' => exact .inr ⟨.removalDelete, by simp [Task.step], rfl, Nat.lt_succ_self 2⟩
  | removalDelete =>
    by_cases hraises : c.raises.isSome = true
    · exact .inr ⟨.removalFailed, by simp [Task.step, hraises], rfl, by decide⟩
    · exact .inl (.inl (by simp [Task.step, hraises, App.status]))
  | removeSpawnFailed _ | removalFailed =>
    have hrecorded : c.raises = none := hc
    exact .inl (.inr (by simp [Task.step, statement, hrecorded, hrow]))
  | _ => cases ht

/-- A removal finishes within the steps it has left. -/
theorem finishes_of_removes {n : Nat} {t : Task} (ht : t.removes = true) (hn : t.removalSteps ≤ n) :
    t.FinishesWithin n := by
  induction n generalizing t with
  | zero => cases t <;> simp [Task.removalSteps] at hn
  | succ n ih =>
    intro c a hc ha
    rcases removes_step ht hc ha with hend | ⟨u, hu, hremoves, hlt⟩
    · exact .inl hend
    · exact .inr ⟨u, hu, ih hremoves (by omega)⟩

/-! ## Runs -/

namespace Server

/-- The step leaves no removal behind. -/
structure KeepsRemovals (s : Server) (a : Action) : Prop where
  /-- The process does not die while the row is being removed. -/
  noCrash : a = .crash → s.status ≠ some .removing
  /-- A removal worker gets its connection, and a removal that fails can record it. -/
  recorded : ∀ t ∈ s.moving a, t.Recorded a.answer

instance (s : Server) (a : Action) : Decidable (s.KeepsRemovals a) :=
  decidable_of_iff ((a = .crash → s.status ≠ some .removing) ∧ ∀ t ∈ s.moving a, t.Recorded a.answer)
    ⟨fun h => ⟨h.1, h.2⟩, fun h => ⟨h.noCrash, h.recorded⟩⟩

/-- A row that is being removed has a removal of this process that will finish it. -/
def Attended (s : Server) : Prop :=
  s.status = some .removing → ∃ t ∈ s.tasks, t.FinishesWithin 6

/-- A row that is being removed has a removal in flight. -/
def InFlight (s : Server) : Prop :=
  s.status = some .removing → ∃ t ∈ s.tasks, t.removes = true

theorem inFlight_of_task {s t : Server} {i : Nat} {c : TaskAnswer} (hsnap : s.SnapshotsOk)
    (hs : s.InFlight) (hok : s.KeepsRemovals (.task i c)) (h : s.next (.task i c) = some t) :
    t.InFlight := by
  obtain ⟨before, task, after, htasks, hi, hshared, htasks', -⟩ := next_task h
  have hmem : task ∈ s.tasks := by rw [htasks]; simp
  have hstatus : t.status = (task.step c s.shared).1.status := by rw [status, hshared]
  intro ht
  rw [hstatus] at ht
  have hnew : (∃ u ∈ (task.step c s.shared).2, u.removes = true) → ∃ u ∈ t.tasks, u.removes = true := by
    rintro ⟨u, hu, hremoves⟩
    exact ⟨u, by simp [htasks', hu], hremoves⟩
  by_cases hr : s.status = some .removing
  · obtain ⟨u, hu, hremoves⟩ := hs hr
    rw [htasks] at hu
    -- either the removal moves, or it is where it was
    by_cases hmoves : u = task
    · subst hmoves
      have hrecorded : u.Recorded c := hok.recorded u hi
      rcases removes_step hremoves hrecorded hr with (hnone | herror) | ⟨v, hv, hgoes, -⟩
      · rw [hnone] at ht
        cases ht
      · rw [herror] at ht
        cases ht
      · exact hnew ⟨v, hv, hgoes⟩
    · refine ⟨u, ?_, hremoves⟩
      rw [htasks']
      rcases List.mem_append.mp hu with hu | hu
      · simp [hu]
      · rcases List.mem_cons.mp hu with hu | hu
        · exact absurd hu hmoves
        · simp [hu]
  · -- the row has just been claimed
    by_cases hclaim : task = .removeClaim
    · subst hclaim
      apply hnew
      simp only [Task.step] at ht ⊢
      split at ht
      · exact absurd ht hr
      · rename_i hclaimed
        simp [hclaimed, Task.removes]
    · exact absurd ht (step_ne_removing hclaim (hsnap task hmem) hr)

theorem inFlight_of_ne_removing {s : Server} (h : s.status ≠ some .removing) : s.InFlight :=
  fun hr => absurd hr h

theorem inFlight_of_more_tasks {s t : Server} (hs : s.InFlight) (hshared : t.shared = s.shared)
    (htasks : ∀ u ∈ s.tasks, u ∈ t.tasks) : t.InFlight := by
  intro ht
  obtain ⟨u, hu, hremoves⟩ := hs (status_of_shared hshared ▸ ht)
  exact ⟨u, htasks u hu, hremoves⟩

theorem inFlight_of_next {s t : Server} {a : Action} (hsnap : s.SnapshotsOk) (hs : s.InFlight)
    (hok : s.KeepsRemovals a) (h : s.next a = some t) : t.InFlight := by
  rcases plain_of_next h with hplain | ⟨i, c, rfl⟩
  · cases hplain with
    | install _ hstatus _ => exact inFlight_of_ne_removing (by simp [hstatus])
    | request _ _ hshared htasks | guard hshared htasks | resume hshared htasks =>
      exact inFlight_of_more_tasks hs hshared fun u hu => by simp [htasks, hu]
    | promote _ hafter _ => exact inFlight_of_ne_removing hafter
    | crash hshared _ _ =>
      exact inFlight_of_ne_removing (status_of_shared hshared ▸ hok.noCrash rfl)
    | boot c hbefore hserving hrow htasks =>
      have hboot : Plain s (.boot c) t := .boot c hbefore hserving hrow htasks
      by_cases hr : s.status = some .removing
      · obtain ⟨-, hsame⟩ := boot_of_removing hboot hr
        intro _
        rw [hsame]
        exact hs hr
      · exact inFlight_of_ne_removing (boot_ne_removing hboot hr)
  · exact inFlight_of_task hsnap hs hok h

/-- In every run of such steps a row that is being removed has a worker that will finish it. -/
theorem attended_of_reach {s₀ s : Server} (hstart : s₀.tasks = []) (hrow : s₀.status ≠ some .removing)
    (hrun : Reach Step KeepsRemovals s₀ s) : s.Attended := by
  have hinv : s.SnapshotsOk ∧ s.InFlight := by
    apply hrun.invariant fun s => s.SnapshotsOk ∧ s.InFlight
    · exact ⟨by simp [SnapshotsOk, hstart], inFlight_of_ne_removing hrow⟩
    · intro _ _ _ hs hok hnext
      exact ⟨snapshotsOk_of_next hs.1 hnext, inFlight_of_next hs.1 hs.2 hok hnext⟩
  intro hr
  obtain ⟨t, ht, hremoves⟩ := hinv.2 hr
  exact ⟨t, ht, finishes_of_removes hremoves (by cases t <;> simp [Task.removalSteps])⟩

/-! ## A crash strands the removal -/

/-- The row is being removed, and nothing in flight will ever change it. -/
structure Stranded (s : Server) : Prop where
  removing : s.status = some .removing
  idle : ∀ u ∈ s.tasks, u.mayWrite = false ∧ u.removes = false

/-- No task comes to remove a row that is claimed already. -/
theorem not_removes_of_leads {t u : Task} {a : App} (ht : t.removes = false)
    (ha : a.status = some .removing) (h : Leads a t u) : u.removes = false := by
  cases h with
  | removeSpawn hguard => exact absurd ha hguard.2
  | _ => first | rfl | cases ht

/-- A step of a task that is neither a bystander with a pending write nor a removal at work. -/
theorem status_of_idle {t : Task} {c : TaskAnswer} {a : App} (hw : t.mayWrite = false)
    (hr : t.removes = false) (ha : a.status = some .removing) :
    (t.step c a).1.status = some .removing := by
  cases hremoval : t.isRemoval with
  | false => exact status_of_not_mayWrite hw hremoval ha
  | true =>
    cases t with
    | removeApp => exact ha
    | removeClaim => simp [Task.step, ha]
    | _ => simp [Task.isRemoval, Task.removes] at hremoval hr

theorem stranded_of_next {s t : Server} {a : Action} (hs : s.Stranded) (ha : a ≠ .resume)
    (h : s.next a = some t) : t.Stranded := by
  rcases plain_of_next h with hplain | ⟨i, c, rfl⟩
  · cases hplain with
    | install hrow _ _ =>
      have hr := hs.removing
      rw [status, App.status, hrow] at hr
      cases hr
    | request r _ hshared htasks =>
      refine ⟨(status_of_shared hshared).trans hs.removing, ?_⟩
      rw [htasks]
      exact forall_mem_append_singleton hs.idle (by cases r <;> exact ⟨rfl, rfl⟩)
    | guard hshared htasks =>
      refine ⟨(status_of_shared hshared).trans hs.removing, ?_⟩
      rw [htasks]
      exact forall_mem_append_singleton hs.idle ⟨rfl, rfl⟩
    | resume _ _ => exact absurd rfl ha
    | promote hbefore _ _ =>
      have htransient := hbefore _ hs.removing
      cases htransient
    | crash hshared htasks _ =>
      exact ⟨(status_of_shared hshared).trans hs.removing, by simp [htasks]⟩
    | boot c hbefore hserving hrow htasks =>
      obtain ⟨hkeep, hsame⟩ := boot_of_removing (.boot c hbefore hserving hrow htasks) hs.removing
      exact ⟨hkeep, hsame ▸ hs.idle⟩
  · obtain ⟨before, task, after, htasks, -, hshared, htasks', -⟩ := next_task h
    obtain ⟨hw, hr⟩ := hs.idle task (by rw [htasks]; simp)
    constructor
    · rw [status, hshared]
      exact status_of_idle hw hr hs.removing
    · rw [htasks']
      apply Pool.forall_tasks_of_step
      · intro u hu
        apply hs.idle
        rw [htasks]
        exact Pool.mem_of_mem_others hu
      · intro u hu
        have hleads := leads_of_mem_step hu
        refine ⟨?_, not_removes_of_leads hr hs.removing hleads⟩
        cases hremoval : task.isRemoval with
        | false => exact continues_of_not_mayWrite hw hremoval hs.removing hleads
        | true => exact not_mayWrite_of_isRemoval (continues_of_isRemoval hremoval hleads)

/-- A stranded removal stays stranded, restarts and further requests to remove the app included. -/
theorem stranded_forever {s t : Server} (hs : s.Stranded)
    (hrun : Reach Step (fun _ a => a ≠ .resume) s t) : t.Stranded :=
  hrun.invariant Stranded hs fun _ _ _ hs ha hnext => stranded_of_next hs ha hnext

end Server

/-! ## Two runs -/

/-- The removal of a stopped app is claimed, the process dies and comes up again. -/
def crashWhileRemoving (c : BootAnswer) : List Action :=
  [.request .remove, .task 0 {}, .task 0 {}, .crash, .boot c]

/-- What the recovery finds. -/
def hostAfterCrash : BootAnswer where
  processStart := 1
  containerRunning := false
  repoIsDir := true
  imageExists := true

/-- The row is being removed and no task is in flight. -/
def strandedServer : Server where
  shared := { row := some notesRow.setStopped.setRemoving, containers := [] }
  tasks := []
  serving := true

/-- After the recovery the row is being removed without a worker, and will be for ever. -/
theorem strandedServer_not_attended :
    stoppedServer.tasks = [] ∧ stoppedServer.status ≠ some .removing ∧
      Reach Server.Step (fun _ a => a ≠ .resume) stoppedServer strandedServer ∧
      ¬ strandedServer.Attended ∧
      ∀ t, Reach Server.Step (fun _ a => a ≠ .resume) strandedServer t → t.status = some .removing := by
  have hrun : runAll Server.next (fun _ a => a ≠ .resume) stoppedServer
      (crashWhileRemoving hostAfterCrash) = some strandedServer := by decide
  refine ⟨rfl, by decide, reach_of_run hrun, fun hattended => ?_, fun t ht => ?_⟩
  · obtain ⟨t, ht, -⟩ := hattended rfl
    cases ht
  · exact (Server.stranded_forever ⟨rfl, by simp [strandedServer]⟩ ht).removing

namespace Server

/-- The removal of `claimedServer` has its worker. -/
theorem claimedServer_attended : claimedServer.Attended := by
  have hrun : runAll next KeepsRemovals stoppedServer
      ([.request .remove] ++ List.replicate 6 (.task 0 {})) = some claimedServer := by decide
  exact attended_of_reach rfl (by decide) (reach_of_run hrun)

end Server

end OpenHost.Apps
