import Mathlib.Data.List.FinRange
import Mathlib.Logic.Function.Basic
import OpenHost.Apps.Steps

/-!
# Quiescing the archive

`stop_running_archive_apps` stops the apps that use the archive before a switch of its backend moves
the data.  It reads the rows once and goes through them, one stop and one inspection at a time; the
requests and workers of all the apps go on meanwhile.  When it has returned, the switch goes on, with
the workers that were in flight then still running.
-/

namespace OpenHost.Apps

open Text (truthy?)

variable {n : Nat}

/-! ## A space of apps -/

/-- An app on the server. -/
structure Slot extends Server where
  /-- The tasks that were in flight when the quiesce step returned. -/
  inFlight : List Task

/-- Where `stop_running_archive_apps` has stopped. -/
inductive Quiesce (n : Nat) where
  /-- not called yet -/
  | idle
  /-- at the head of the loop: the ids recorded so far, the rows to come, the names still running -/
  | next (recorded : List (Fin n)) (rest : List (Fin n × Row)) (stillRunning : List String)
  /-- before `is_container_running` -/
  | inspect (recorded : List (Fin n)) (i : Fin n) (row : Row) (containerId : String)
      (rest : List (Fin n × Row)) (stillRunning : List String)
  | returned (recorded : List (Fin n))
  | raised (message : String)
  /-- the switch has ended -/
  | ended

/-- The apps, and the archive switch. -/
structure Space (n : Nat) where
  slots : Fin n → Slot
  quiesce : Quiesce n

/-- `manifest_uses_archive(row["manifest_raw"] or "")` -/
def Row.usesArchive (manifestUsesArchive : String → Bool) (row : Row) : Bool :=
  manifestUsesArchive (row.manifestRaw.getD "")

/-- The app is installed with a manifest that uses the archive. -/
def App.usesArchive (manifestUsesArchive : String → Bool) (a : App) : Bool :=
  a.row.any (Row.usesArchive manifestUsesArchive)

/-- The message of the `RuntimeError`. -/
def couldNotStop (stillRunning : List String) : String :=
  "could not stop archive-using app(s) before migration: " ++ ", ".intercalate stillRunning ++
    "; aborting so the sync can't race a live writer (local backend left intact)"

/-- What podman answers to the quiesce step. -/
structure QuiesceAnswer where
  /-- `stop_app_process` took effect. -/
  effective : Bool := true
  /-- `is_container_running` -/
  running : Bool := false

namespace Space

/-- `SELECT … FROM apps` -/
def rows (s : Space n) : List (Fin n × Row) :=
  (List.finRange n).filterMap fun i => (s.slots i).shared.row.map (i, ·)

def setSlot (s : Space n) (i : Fin n) (slot : Slot) : Space n :=
  { s with slots := Function.update s.slots i slot }

/-- `stop_app_process(row)` -/
def stop (s : Space n) (i : Fin n) (row : Row) (effective : Bool) : Space n :=
  if effective then
    s.setSlot i { s.slots i with shared := (s.slots i).shared.stopAppProcess row }
  else s

/-- The tasks in flight are told from those that begin later. -/
def handOver (s : Space n) : Fin n → Slot := fun i =>
  { s.slots i with tasks := [], inFlight := (s.slots i).tasks }

/-- One step of `stop_running_archive_apps`. -/
def quiesceStep (manifestUsesArchive : String → Bool) (s : Space n) (c : QuiesceAnswer) :
    Option (Space n) :=
  match s.quiesce with
  | .idle => some { s with quiesce := .next [] s.rows [] }
  | .next recorded [] stillRunning =>
      if stillRunning = [] then some { slots := s.handOver, quiesce := .returned recorded }
      else some { s with quiesce := .raised (couldNotStop stillRunning) }
  | .next recorded ((i, row) :: rest) stillRunning =>
      if row.status ≠ .running || !row.usesArchive manifestUsesArchive then
        some { s with quiesce := .next recorded rest stillRunning }
      else
        some { s.stop i row c.effective with
          quiesce :=
            match truthy? row.containerId with
            | some containerId =>
                .inspect (recorded ++ [i]) i row containerId rest stillRunning
            | none => .next (recorded ++ [i]) rest stillRunning }
  | .inspect recorded _ row _ rest stillRunning =>
      some { s with
        quiesce :=
          .next recorded rest (if c.running then stillRunning ++ [row.name] else stillRunning) }
  | .returned _ | .raised _ | .ended => none

end Space

/-- What may happen next in a space.  The death of the process, which ends the switch, is left out. -/
inductive SpaceAction (n : Nat) where
  /-- a step of an app's own server -/
  | app (i : Fin n) (a : Action)
  /-- a step of a task that was in flight when the quiesce step returned -/
  | inFlight (i : Fin n) (j : Nat) (c : TaskAnswer)
  | quiesce (c : QuiesceAnswer)
  /-- the switch ends -/
  | ended

/-- The action takes the whole process down or up. -/
def Action.restarts : Action → Bool
  | .crash | .boot _ => true
  | _ => false

namespace Space

/-- One step of the space. -/
def next (manifestUsesArchive : String → Bool) (s : Space n) : SpaceAction n → Option (Space n)
  | .app i a =>
      if a.restarts then none
      else ((s.slots i).toServer.next a).map fun t => s.setSlot i { s.slots i with toServer := t }
  | .inFlight i j c =>
      (Pool.stepAt Task.step ⟨(s.slots i).shared, (s.slots i).inFlight⟩ j c).map fun p =>
        s.setSlot i { s.slots i with shared := p.shared, inFlight := p.tasks }
  | .quiesce c => s.quiesceStep manifestUsesArchive c
  | .ended =>
      match s.quiesce with
      | .returned _ | .raised _ => some { s with quiesce := .ended }
      | _ => none

/-- The step relation. -/
def Step (manifestUsesArchive : String → Bool) (s : Space n) (a : SpaceAction n) (t : Space n) :
    Prop := s.next manifestUsesArchive a = some t

/-- The quiesce step has read the rows and not come to its end. -/
def Loops (s : Space n) : Prop :=
  match s.quiesce with
  | .next _ _ _ | .inspect _ _ _ _ _ _ => True
  | _ => False

/-- The quiesce step has returned and the switch goes on. -/
def Returned (s : Space n) : Prop :=
  match s.quiesce with
  | .returned _ => True
  | _ => False

end Space

/-! ## What the switch relies on -/

/-- An app's containers that run. -/
def App.running (a : App) : List Container := a.containers.filter (·.running)

variable {manifestUsesArchive : String → Bool}

/-- When the quiesce step returns, no app that uses the archive runs; and no task in flight then starts
a container of one until the switch is over. -/
structure Space.Quiet (manifestUsesArchive : String → Bool) (s : Space n) (a : SpaceAction n)
    (t : Space n) : Prop where
  stopped : ¬ s.Returned → t.Returned →
    ∀ i, (t.slots i).shared.usesArchive manifestUsesArchive = true →
      (t.slots i).shared.running = []
  stays : s.Returned → ∀ i j c, a = .inFlight i j c →
    (t.slots i).shared.usesArchive manifestUsesArchive = true →
      (t.slots i).shared.running ⊆ (s.slots i).shared.running

/-- The thread has its `podman run` before it. -/
def Pc.mayLaunch : Pc → Bool
  | .recordContainer _ | .waitReady _ | .cleanUp _ _ | .recordFailure _ _ | .handler _ => false
  | _ => true

/-- The task may come to a `podman run`. -/
def Task.mayLaunch : Task → Bool
  | .reloadApp _ _ | .reloadPull _ _ | .reloadClaim _ _ | .reloadStop _ | .reloadSpawn
  | .renameApp _ | .installSpawn => true
  | .renameStop _ row | .renameStopped _ row | .renameDirs _ row | .renameRecord _ row =>
      wasRunning row
  | .worker _ pc => pc.mayLaunch
  | _ => false

/-- The action begins such a task. -/
def Action.mayLaunch : Action → Bool
  | .install _ | .resume => true
  | .request r => r.task.mayLaunch
  | _ => false

/-- The manifest texts that the action may write into the row. -/
def Action.manifests : Action → List String
  | .install row => [row.manifestRaw.getD ""]
  | .task _ c => c.manifest.toList
  | _ => []

/-- What runs is what the row says, and no launch is under way. -/
structure Slot.Settled (slot : Slot) : Prop where
  recorded : ∀ k ∈ slot.shared.running, ∃ row ∈ slot.shared.row,
    row.status = .running ∧ truthy? row.containerId = some k.id
  tasks : ∀ t ∈ slot.tasks, t.mayLaunch = false

/-- The condition on a step. -/
structure Space.Undisturbed (manifestUsesArchive : String → Bool) (s : Space n)
    (a : SpaceAction n) : Prop where
  /-- The apps that use the archive are settled when the rows are read. -/
  read : ∀ c, a = .quiesce c → s.quiesce = .idle →
    ∀ i, (s.slots i).shared.usesArchive manifestUsesArchive = true → (s.slots i).Settled
  /-- A container that runs is found running. -/
  inspected : ∀ c recorded i row containerId rest stillRunning, a = .quiesce c →
    s.quiesce = .inspect recorded i row containerId rest stillRunning →
      (∃ k ∈ (s.slots i).shared.running, k.id = containerId) → c.running = true
  /-- Nothing that launches begins for them before the quiesce step has returned. -/
  begins : s.Loops → ∀ i act, a = .app i act → act.mayLaunch = true →
    (s.slots i).shared.usesArchive manifestUsesArchive = false
  /-- No app comes to use the archive before the quiesce step has returned, and none afterwards that has
  a launch in flight. -/
  converts : ∀ i, (s.slots i).shared.usesArchive manifestUsesArchive = false →
    (s.Loops ∨ s.Returned ∧ ∃ t ∈ (s.slots i).inFlight, t.mayLaunch = true) →
      (∀ act, a = .app i act → ∀ raw ∈ act.manifests, manifestUsesArchive raw = false) ∧
        ∀ j c, a = .inFlight i j c → ∀ raw ∈ c.manifest, manifestUsesArchive raw = false

/-! ## Steps that launch nothing -/

theorem running_subset {a b : App} (h : b.containers ⊆ a.containers) : b.running ⊆ a.running := by
  intro k hk
  obtain ⟨hmem, hrun⟩ := List.mem_filter.mp hk
  exact List.mem_filter.mpr ⟨h hmem, hrun⟩

theorem containers_stopContainer (target : String) (a : App) :
    (a.stopContainer target).containers ⊆ a.containers :=
  List.filter_sublist.subset

theorem containers_stopAppProcess (row : Row) (a : App) :
    (a.stopAppProcess row).containers ⊆ a.containers := by
  unfold App.stopAppProcess
  split
  · split
    · exact List.Subset.refl _
    · exact containers_stopContainer _ _
  · exact List.Subset.refl _

theorem containers_stopProcess (row : Row) (c : TaskAnswer) (a : App) :
    (stopProcess row c a).containers ⊆ a.containers := by
  unfold stopProcess
  split
  · exact containers_stopAppProcess row a
  · exact List.Subset.refl _

@[simp] theorem containers_statement (a : App) (c : TaskAnswer) (f : Row → Row) (next : List Task) :
    (statement a c f next).1.containers = a.containers := by
  unfold statement
  split <;> rfl

/-- Behind its `podman run` a worker only stops containers. -/
theorem containers_of_pc {pc : Pc} (h : pc.mayLaunch = false) (caller : Caller) (c : Answer)
    (a : App) : (Worker.step caller pc c a).1.containers ⊆ a.containers := by
  cases pc with
  | recordContainer containerId =>
    simp only [Worker.step]
    split <;> exact List.Subset.refl _
  | waitReady containerId =>
    simp only [Worker.step]
    split <;> exact List.Subset.refl _
  | cleanUp containerId message =>
    simp only [Worker.step]
    split
    · exact containers_stopContainer _ _
    · exact List.Subset.refl _
  | recordFailure message containerId =>
    simp only [Worker.step]
    split <;> exact List.Subset.refl _
  | handler message =>
    simp only [Worker.step]
    split
    · exact List.Subset.refl _
    · split <;> exact List.Subset.refl _
  | _ => cases h

/-- A task without a launch before it starts no container. -/
theorem containers_of_task {t : Task} (h : t.mayLaunch = false) (c : TaskAnswer) (a : App) :
    (t.step c a).1.containers ⊆ a.containers := by
  cases t with
  | worker caller pc => exact containers_of_pc h caller c.toAnswer a
  | stopContainers row =>
    simp only [Task.step]
    split
    · exact List.Subset.trans (containers_stopContainer _ _) (containers_stopAppProcess row a)
    · exact List.Subset.refl _
  | renameStop newName row => exact containers_stopProcess row c a
  | removalTearDown row => exact containers_stopProcess row c a
  | guardStop row => exact containers_stopProcess row c a
  | removeClaim =>
    simp only [Task.step]
    split <;> exact List.Subset.refl _
  | removalDelete =>
    simp only [Task.step]
    split <;> exact List.Subset.refl _
  | stopRecord | reloadFail _ | renameStopped _ _ | renameRestore _ | renameRecord _ _
  | removeSpawnFailed _ | removalFailed | guardRecord =>
    exact fun k hk => containers_statement a c _ _ ▸ hk
  | stopApp | renameDirs _ _ | removeApp | removeSpawn | removalConnect | removalRead | guardRead =>
    exact List.Subset.refl _
  | reloadApp _ _ | reloadPull _ _ | reloadClaim _ _ | reloadStop _ | reloadSpawn | renameApp _
  | installSpawn => cases h

/-- Where a worker goes from behind its `podman run`. -/
theorem mayLaunch_of_pc {caller : Caller} {pc pc' : Pc} {c : Answer} {a : App}
    (h : pc.mayLaunch = false) (hstep : (Worker.step caller pc c a).2 = some pc') :
    pc'.mayLaunch = false := by
  cases pc with
  | recordContainer containerId =>
    cases hraises : c.raises <;> simp only [Worker.step, hraises, Option.some.injEq] at hstep <;>
      exact hstep ▸ rfl
  | waitReady containerId =>
    cases hraises : c.raises <;> simp only [Worker.step, hraises, Option.some.injEq] at hstep
    · cases hstep
    · exact hstep ▸ rfl
  | cleanUp containerId message =>
    simp only [Worker.step, Option.some.injEq] at hstep
    exact hstep ▸ rfl
  | recordFailure message containerId =>
    cases hraises : c.raises <;> simp only [Worker.step, hraises, Option.some.injEq] at hstep <;>
      exact hstep ▸ rfl
  | handler message =>
    simp only [Worker.step] at hstep
    split at hstep <;> cases hstep
  | _ => cases h

/-- No task with a launch before it goes on from one without. -/
theorem mayLaunch_of_leads {a : App} {t u : Task} (hlead : Leads a t u) (h : t.mayLaunch = false) :
    u.mayLaunch = false := by
  cases hlead with
  | worker hpc => exact mayLaunch_of_pc h hpc
  | renameWorker hup =>
    rw [Task.mayLaunch, hup] at h
    cases h
  | renameStop _ _ | reloadPull _ _ | reloadPlain _ _ | pulled | pullFailed | claimed _ | unclaimed _
  | reloadSpawn | reloadWorker | deployWorker => cases h
  | renameStopped | renameDirs | renameRecord => exact h
  | _ => rfl

/-! ## Steps that write a manifest -/

/-- The manifest in the row is the one there was, or one that was written. -/
def KeepsManifest (manifests : List String) (a b : App) : Prop :=
  ∀ row ∈ b.row, (∃ old ∈ a.row, row.manifestRaw = old.manifestRaw) ∨
    ∃ raw ∈ manifests, row.manifestRaw.getD "" = raw

theorem KeepsManifest.of_row {manifests : List String} {a b : App} (h : b.row = a.row) :
    KeepsManifest manifests a b := by
  intro row hrow
  exact .inl ⟨row, h ▸ hrow, rfl⟩

theorem keepsManifest_update {manifests : List String} {f : Row → Row}
    (h : ∀ r, (f r).manifestRaw = r.manifestRaw) (a : App) :
    KeepsManifest manifests a (a.update f) := by
  intro row hrow
  obtain ⟨old, hold, rfl⟩ := Option.map_eq_some_iff.mp hrow
  exact .inl ⟨old, hold, h old⟩

theorem keepsManifest_statement {manifests : List String} {f : Row → Row}
    (h : ∀ r, (f r).manifestRaw = r.manifestRaw) (a : App) (c : TaskAnswer) (next : List Task) :
    KeepsManifest manifests a (statement a c f next).1 := by
  unfold statement
  split
  · exact .of_row rfl
  · exact keepsManifest_update h a

theorem row_stopProcess (row : Row) (c : TaskAnswer) (a : App) :
    (stopProcess row c a).row = a.row := by
  unfold stopProcess
  split
  · exact App.row_stopAppProcess row a
  · rfl

/-- Only `reload_app_background` writes a manifest. -/
theorem keepsManifest_of_pc (caller : Caller) (pc : Pc) (c : Answer) (a : App) :
    KeepsManifest c.manifest.toList a (Worker.step caller pc c a).1 := by
  cases pc with
  | reloadStart =>
    simp only [Worker.step]
    split
    · exact .of_row rfl
    · intro row hrow
      obtain ⟨old, hold, rfl⟩ := Option.map_eq_some_iff.mp hrow
      cases hm : c.manifest with
      | none => exact .inl ⟨old, hold, by rw [Row.setManifest]⟩
      | some raw => exact .inr ⟨raw, by simp, rfl⟩
  | connect | deployStart | startProcess | restartProcess | build | prepare _ => exact .of_row rfl
  | markStarting | markLaunching _ =>
    simp only [Worker.step]
    split
    · exact .of_row rfl
    · exact keepsManifest_update (fun _ => by rfl) a
  | readRow =>
    simp only [Worker.step]
    split <;> exact .of_row rfl
  | launch row =>
    simp only [Worker.step]
    split
    · split <;> exact .of_row rfl
    · exact .of_row rfl
  | recordContainer containerId =>
    simp only [Worker.step]
    split
    · exact .of_row rfl
    · exact keepsManifest_update (fun _ => by rfl) a
  | waitReady containerId =>
    simp only [Worker.step]
    split
    · exact .of_row rfl
    · split <;> exact keepsManifest_update (fun _ => by rfl) a
  | cleanUp containerId message =>
    simp only [Worker.step]
    split <;> exact .of_row rfl
  | recordFailure message containerId =>
    simp only [Worker.step]
    split
    · exact .of_row rfl
    · exact keepsManifest_update (fun _ => by rfl) a
  | handler message =>
    simp only [Worker.step]
    split
    · exact .of_row rfl
    · split
      · exact .of_row rfl
      · exact keepsManifest_update (fun _ => by rfl) a

theorem keepsManifest_of_task (t : Task) (c : TaskAnswer) (a : App) :
    KeepsManifest c.manifest.toList a (t.step c a).1 := by
  cases t with
  | worker caller pc => exact keepsManifest_of_pc caller pc c.toAnswer a
  | stopContainers row =>
    simp only [Task.step]
    split
    · exact .of_row (by simp)
    · exact .of_row rfl
  | renameStop _ row | removalTearDown row | guardStop row | reloadStop row =>
    exact .of_row (row_stopProcess row c a)
  | reloadClaim continueOauth row =>
    simp only [Task.step]
    split
    · exact .of_row rfl
    · split
      · exact .of_row rfl
      · exact keepsManifest_update (fun _ => by rfl) a
  | removeClaim =>
    simp only [Task.step]
    split
    · exact .of_row rfl
    · exact keepsManifest_update (fun _ => by rfl) a
  | removalDelete =>
    simp only [Task.step]
    split
    · exact .of_row rfl
    · intro row hrow
      cases hrow
  | stopRecord | reloadFail _ | renameStopped _ _ | renameRestore _ | renameRecord _ _
  | removeSpawnFailed _ | removalFailed | guardRecord =>
    exact keepsManifest_statement (fun _ => by rfl) a c _
  | stopApp | renameDirs _ _ | removeApp | removeSpawn | removalConnect | removalRead | guardRead
  | reloadApp _ _ | reloadPull _ _ | reloadSpawn | renameApp _ | installSpawn => exact .of_row rfl

/-- An app that did not use the archive comes to use it through what is written only. -/
theorem usesArchive_of_keepsManifest {manifests : List String} {a b : App}
    (h : KeepsManifest manifests a b) (hb : b.usesArchive manifestUsesArchive = true) :
    a.usesArchive manifestUsesArchive = true ∨
      ∃ raw ∈ manifests, manifestUsesArchive raw = true := by
  unfold App.usesArchive at hb ⊢
  cases hrow : b.row with
  | none =>
    rw [hrow] at hb
    cases hb
  | some row =>
    rw [hrow] at hb
    have huses : manifestUsesArchive (row.manifestRaw.getD "") = true := hb
    rcases h row hrow with ⟨old, hold, hsame⟩ | ⟨raw, hraw, heq⟩
    · left
      rw [Option.mem_def.mp hold, Option.any_some, Row.usesArchive, ← hsame]
      exact huses
    · exact .inr ⟨raw, hraw, heq ▸ huses⟩

/-! ## Steps of one app -/

/-- A pool in which nothing launches. -/
def Still (tasks : List Task) : Prop := ∀ t ∈ tasks, t.mayLaunch = false

/-- A step among tasks none of which launches. -/
theorem still_of_stepAt {p q : Pool App Task} {j : Nat} {c : TaskAnswer}
    (h : p.stepAt Task.step j c = some q) (hstill : Still p.tasks) :
    q.shared.containers ⊆ p.shared.containers ∧ Still q.tasks := by
  obtain ⟨before, t, after, htasks, -, rfl⟩ := Pool.stepAt_cases h
  have ht : t.mayLaunch = false := hstill t (by simp [htasks])
  refine ⟨containers_of_task ht c p.shared, Pool.forall_tasks_of_step ?_ ?_⟩
  · intro u hu
    exact hstill u (htasks ▸ Pool.mem_of_mem_others hu)
  · intro u hu
    exact mayLaunch_of_leads (leads_of_mem_step hu) ht

theorem keepsManifest_of_stepAt {p q : Pool App Task} {j : Nat} {c : TaskAnswer}
    (h : p.stepAt Task.step j c = some q) :
    KeepsManifest c.manifest.toList p.shared q.shared := by
  obtain ⟨before, t, after, -, -, rfl⟩ := Pool.stepAt_cases h
  exact keepsManifest_of_task t c p.shared

/-- A step of a server in which nothing launches, and that begins nothing that does. -/
theorem still_of_next {s t : Server} {a : Action} (h : s.next a = some t)
    (hrestarts : a.restarts = false) (hstill : Still s.tasks) (ha : a.mayLaunch = false) :
    t.shared.containers ⊆ s.shared.containers ∧ Still t.tasks := by
  cases a with
  | crash | boot _ => cases hrestarts
  | install _ | resume => cases ha
  | task j c =>
    obtain ⟨p, hp, rfl⟩ := Option.map_eq_some_iff.mp h
    exact still_of_stepAt hp hstill
  | request r =>
    simp only [Server.next] at h
    split at h
    · rw [← Option.some.inj h]
      exact ⟨List.Subset.refl _, Server.forall_mem_append_singleton hstill ha⟩
    · cases h
  | guard =>
    simp only [Server.next] at h
    split at h
    · rw [← Option.some.inj h]
      exact ⟨List.Subset.refl _, Server.forall_mem_append_singleton hstill rfl⟩
    · cases h
  | promote =>
    simp only [Server.next] at h
    split at h
    · rw [← Option.some.inj h]
      exact ⟨List.Subset.refl _, hstill⟩
    · cases h

theorem keepsManifest_of_next {s t : Server} {a : Action} (h : s.next a = some t)
    (hrestarts : a.restarts = false) : KeepsManifest a.manifests s.shared t.shared := by
  cases a with
  | crash | boot _ => cases hrestarts
  | task j c =>
    obtain ⟨p, hp, rfl⟩ := Option.map_eq_some_iff.mp h
    exact keepsManifest_of_stepAt hp
  | install row =>
    simp only [Server.next] at h
    split at h
    · rw [← Option.some.inj h]
      intro row' hrow
      refine .inr ⟨row.manifestRaw.getD "", List.mem_singleton_self _, ?_⟩
      rw [← Option.some.inj hrow]
      rfl
    · cases h
  | request r | guard | resume =>
    simp only [Server.next] at h
    split at h
    · rw [← Option.some.inj h]
      exact .of_row rfl
    · cases h
  | promote =>
    simp only [Server.next] at h
    split at h
    · rw [← Option.some.inj h]
      refine keepsManifest_update (fun r => ?_) s.shared
      unfold promoteRow
      split <;> rfl
    · cases h

/-! ## The invariant of the quiesce step -/

namespace Space

variable {s t : Space n} {i : Fin n}

/-- The rows to come hold the container of an app that runs and uses the archive. -/
def Listed (manifestUsesArchive : String → Bool) (rest : List (Fin n × Row)) (i : Fin n)
    (k : Container) : Prop :=
  ∃ row, (i, row) ∈ rest ∧ row.status = .running ∧ row.usesArchive manifestUsesArchive = true ∧
    truthy? row.containerId = some k.id

/-- The quiesce step comes to the container, or has found one that goes on running. -/
def Awaited (manifestUsesArchive : String → Bool) (s : Space n) (i : Fin n) (k : Container) : Prop :=
  match s.quiesce with
  | .next _ rest stillRunning => stillRunning ≠ [] ∨ Listed manifestUsesArchive rest i k
  | .inspect _ j _ containerId rest stillRunning =>
      stillRunning ≠ [] ∨ (j = i ∧ containerId = k.id) ∨ Listed manifestUsesArchive rest i k
  | _ => True

/-- What holds in between: of the apps that use the archive, nothing launches, and every container that
runs is awaited; and what is in flight after the quiesce step launches nothing for them. -/
structure Guarded (manifestUsesArchive : String → Bool) (s : Space n) : Prop where
  loops : s.Loops → ∀ i, (s.slots i).shared.usesArchive manifestUsesArchive = true →
    Still (s.slots i).tasks ∧ ∀ k ∈ (s.slots i).shared.running, s.Awaited manifestUsesArchive i k
  returned : s.Returned → ∀ i, (s.slots i).shared.usesArchive manifestUsesArchive = true →
    Still (s.slots i).inFlight
  fresh : s.quiesce = .idle ∨ s.Loops → ∀ i, (s.slots i).inFlight = []

/-- An app uses the archive after a step of its own. -/
theorem usesArchive_before {manifests : List String} {a b : App} (h : KeepsManifest manifests a b)
    (hnone : a.usesArchive manifestUsesArchive = false →
      ∀ raw ∈ manifests, manifestUsesArchive raw = false)
    (hb : b.usesArchive manifestUsesArchive = true) : a.usesArchive manifestUsesArchive = true := by
  rcases usesArchive_of_keepsManifest h hb with ha | ⟨raw, hraw, huses⟩
  · exact ha
  · by_contra hnot
    rw [hnone (by simpa using hnot) raw hraw] at huses
    cases huses

/-- A step of an app's own server. -/
theorem guarded_app {a : Action} {u : Server} (hs : s.Guarded manifestUsesArchive)
    (hok : s.Undisturbed manifestUsesArchive (.app i a)) (hrestarts : a.restarts = false)
    (h : (s.slots i).toServer.next a = some u) :
    (s.setSlot i { s.slots i with toServer := u }).Guarded manifestUsesArchive := by
  have hkeeps := keepsManifest_of_next h hrestarts
  constructor
  · intro hloops j hj
    by_cases heq : j = i
    · subst heq
      simp only [setSlot, Function.update_self] at hj ⊢
      have hbefore := usesArchive_before hkeeps
        (fun hnot => (hok.converts j hnot (.inl hloops)).1 a rfl) hj
      obtain ⟨hstill, hawaited⟩ := hs.loops hloops j hbefore
      have hlaunch : a.mayLaunch = false := by
        by_contra hmay
        rw [hok.begins hloops j a rfl (by simpa using hmay)] at hbefore
        cases hbefore
      obtain ⟨hsub, hstill'⟩ := still_of_next h hrestarts hstill hlaunch
      exact ⟨hstill', fun k hk => hawaited k (running_subset hsub hk)⟩
    · simp only [setSlot, Function.update_of_ne heq] at hj ⊢
      exact hs.loops hloops j hj
  · intro hreturned j hj
    by_cases heq : j = i
    · subst heq
      simp only [setSlot, Function.update_self] at hj ⊢
      intro task htask
      by_contra hmay
      have hbefore := usesArchive_before hkeeps
        (fun hnot => (hok.converts j hnot
          (.inr ⟨hreturned, task, htask, by simpa using hmay⟩)).1 a rfl) hj
      exact hmay (hs.returned hreturned j hbefore task htask)
    · simp only [setSlot, Function.update_of_ne heq] at hj ⊢
      exact hs.returned hreturned j hj
  · intro hbefore j
    by_cases heq : j = i
    · subst heq
      simp only [setSlot, Function.update_self]
      exact hs.fresh hbefore j
    · simp only [setSlot, Function.update_of_ne heq]
      exact hs.fresh hbefore j

/-- A step of a task that was in flight when the quiesce step returned. -/
theorem still_of_inFlight {j : Nat} {c : TaskAnswer} {p : Pool App Task}
    (hs : s.Guarded manifestUsesArchive)
    (hok : s.Undisturbed manifestUsesArchive (.inFlight i j c)) (hreturned : s.Returned)
    (h : Pool.stepAt Task.step ⟨(s.slots i).shared, (s.slots i).inFlight⟩ j c = some p)
    (huses : p.shared.usesArchive manifestUsesArchive = true) :
    p.shared.containers ⊆ (s.slots i).shared.containers ∧ Still p.tasks := by
  by_cases hstill : Still (s.slots i).inFlight
  · exact still_of_stepAt (p := ⟨(s.slots i).shared, (s.slots i).inFlight⟩) h hstill
  · -- a launch is in flight, so the app did not use the archive and does not now
    exfalso
    obtain ⟨task, htask⟩ := not_forall.mp hstill
    obtain ⟨hmem, hmay⟩ := Classical.not_imp.mp htask
    have hbefore := usesArchive_before (keepsManifest_of_stepAt h) (fun hnot raw hraw =>
      (hok.converts i hnot (.inr ⟨hreturned, task, hmem, by simpa using hmay⟩)).2 j c rfl raw
        (Option.mem_toList.mp hraw)) huses
    exact hstill (hs.returned hreturned i hbefore)

theorem guarded_inFlight {j : Nat} {c : TaskAnswer} {p : Pool App Task}
    (hs : s.Guarded manifestUsesArchive)
    (hok : s.Undisturbed manifestUsesArchive (.inFlight i j c))
    (h : Pool.stepAt Task.step ⟨(s.slots i).shared, (s.slots i).inFlight⟩ j c = some p) :
    (s.setSlot i { s.slots i with shared := p.shared, inFlight := p.tasks }).Guarded
      manifestUsesArchive := by
  -- there is such a task
  have hsome : (s.slots i).inFlight ≠ [] := by
    intro hnil
    rw [hnil] at h
    cases h
  constructor
  · intro hloops
    exact absurd (hs.fresh (.inr hloops) i) hsome
  · intro hreturned k hk
    by_cases heq : k = i
    · subst heq
      simp only [setSlot, Function.update_self] at hk ⊢
      exact (still_of_inFlight hs hok hreturned h hk).2
    · simp only [setSlot, Function.update_of_ne heq] at hk ⊢
      exact hs.returned hreturned k hk
  · intro hbefore
    exact absurd (hs.fresh hbefore i) hsome

theorem mem_rows {row : Row} (h : (s.slots i).shared.row = some row) : (i, row) ∈ s.rows := by
  refine List.mem_filterMap.mpr ⟨i, List.mem_finRange i, ?_⟩
  rw [h]
  rfl

/-- The rows are read. -/
theorem guarded_read {c : QuiesceAnswer} (hs : s.Guarded manifestUsesArchive)
    (hok : s.Undisturbed manifestUsesArchive (.quiesce c)) (hidle : s.quiesce = .idle) :
    ({ s with quiesce := .next [] s.rows [] } : Space n).Guarded manifestUsesArchive where
  loops _ i hi := by
    have hsettled := hok.read c rfl hidle i hi
    refine ⟨hsettled.tasks, fun k hk => ?_⟩
    obtain ⟨row, hrow, hstatus, hid⟩ := hsettled.recorded k hk
    refine .inr ⟨row, mem_rows hrow, hstatus, ?_, hid⟩
    have huses : ((s.slots i).shared.row).any (Row.usesArchive manifestUsesArchive) = true := hi
    rwa [Option.mem_def.mp hrow, Option.any_some] at huses
  returned h := False.elim h
  fresh _ := hs.fresh (.inl hidle)

theorem Listed.of_cons {j : Fin n} {row : Row} {rest : List (Fin n × Row)} {k : Container}
    (h : Listed manifestUsesArchive ((j, row) :: rest) i k) :
    (j = i ∧ row.status = .running ∧ row.usesArchive manifestUsesArchive = true ∧
      truthy? row.containerId = some k.id) ∨ Listed manifestUsesArchive rest i k := by
  obtain ⟨row', hmem, hfacts⟩ := h
  rcases List.mem_cons.mp hmem with heq | hmem
  · obtain ⟨rfl, rfl⟩ := Prod.mk.inj heq
    exact .inl ⟨rfl, hfacts⟩
  · exact .inr ⟨row', hmem, hfacts⟩

/-- `stop_app_process` changes the containers of the app only, and only fewer run. -/
theorem stop_slots (j : Fin n) (row : Row) (effective : Bool) (i : Fin n) :
    ((s.stop j row effective).slots i).shared.containers ⊆ (s.slots i).shared.containers ∧
      ((s.stop j row effective).slots i).shared.row = (s.slots i).shared.row ∧
      ((s.stop j row effective).slots i).tasks = (s.slots i).tasks ∧
      ((s.stop j row effective).slots i).inFlight = (s.slots i).inFlight := by
  unfold stop
  split
  · by_cases heq : i = j
    · subst heq
      simp only [setSlot, Function.update_self]
      exact ⟨containers_stopAppProcess row _, App.row_stopAppProcess row _, trivial, trivial⟩
    · simp only [setSlot, Function.update_of_ne heq]
      exact ⟨List.Subset.refl _, trivial, trivial, trivial⟩
  · exact ⟨List.Subset.refl _, rfl, rfl, rfl⟩

/-- A step of the loop, in which every container that still runs goes on being awaited. -/
theorem guarded_loop {slots : Fin n → Slot} {quiesce : Quiesce n} (hs : s.Guarded manifestUsesArchive)
    (hloops : s.Loops)
    (hslots : ∀ i, (slots i).shared.containers ⊆ (s.slots i).shared.containers ∧
      (slots i).shared.row = (s.slots i).shared.row ∧ (slots i).tasks = (s.slots i).tasks ∧
      (slots i).inFlight = (s.slots i).inFlight)
    (hbefore : ¬ (Space.mk slots quiesce).Returned)
    (hawaited : ∀ i, ∀ k ∈ (s.slots i).shared.running, s.Awaited manifestUsesArchive i k →
      k ∈ (slots i).shared.running → (Space.mk slots quiesce).Awaited manifestUsesArchive i k) :
    (Space.mk slots quiesce).Guarded manifestUsesArchive where
  loops _ i hi := by
    obtain ⟨hsub, hrow, htasks, -⟩ := hslots i
    rw [App.usesArchive, hrow] at hi
    obtain ⟨hstill, hall⟩ := hs.loops hloops i hi
    refine ⟨htasks ▸ hstill, fun k hk => ?_⟩
    have hk' := running_subset hsub hk
    exact hawaited i k hk' (hall k hk') hk
  returned h := absurd h hbefore
  fresh _ i := (hslots i).2.2.2.trans (hs.fresh (.inr hloops) i)

theorem guarded_quiesce {c : QuiesceAnswer} (hs : s.Guarded manifestUsesArchive)
    (hok : s.Undisturbed manifestUsesArchive (.quiesce c))
    (h : s.quiesceStep manifestUsesArchive c = some t) : t.Guarded manifestUsesArchive := by
  have hsame : ∀ i, (s.slots i).shared.containers ⊆ (s.slots i).shared.containers ∧
      (s.slots i).shared.row = (s.slots i).shared.row ∧ (s.slots i).tasks = (s.slots i).tasks ∧
      (s.slots i).inFlight = (s.slots i).inFlight := fun i => ⟨List.Subset.refl _, rfl, rfl, rfl⟩
  unfold quiesceStep at h
  cases hq : s.quiesce with
  | returned _ | raised _ | ended =>
    rw [hq] at h
    cases h
  | idle =>
    rw [hq] at h
    rw [← Option.some.inj h]
    exact guarded_read hs hok hq
  | next recorded rest stillRunning =>
    have hloops : s.Loops := by
      unfold Loops
      rw [hq]
      trivial
    have hawaits : ∀ i k, s.Awaited manifestUsesArchive i k →
        stillRunning ≠ [] ∨ Listed manifestUsesArchive rest i k := by
      intro i k hk
      unfold Awaited at hk
      rwa [hq] at hk
    rw [hq] at h
    cases rest with
    | nil =>
      dsimp only at h
      split at h
      · rw [← Option.some.inj h]
        exact
          { loops := fun h => False.elim h
            returned := fun _ i hi => (hs.loops hloops i hi).1
            fresh := fun h => h.elim (fun h => by cases h) False.elim }
      · rw [← Option.some.inj h]
        exact
          { loops := fun h => False.elim h
            returned := fun h => False.elim h
            fresh := fun h => h.elim (fun h => by cases h) False.elim }
    | cons entry rest =>
      obtain ⟨j, row⟩ := entry
      dsimp only at h
      split at h
      · -- an app that is passed over
        next hskip =>
        rw [← Option.some.inj h]
        refine guarded_loop hs hloops hsame id fun i k _ hk _ => ?_
        rcases hawaits i k hk with hstill | hlisted
        · exact .inl hstill
        · rcases hlisted.of_cons with ⟨-, hstatus, huses, -⟩ | hlisted
          · rw [hstatus, huses] at hskip
            cases hskip
          · exact .inr hlisted
      · -- an app that is stopped
        cases hid : truthy? row.containerId with
        | none =>
          rw [hid] at h
          rw [← Option.some.inj h]
          refine guarded_loop hs hloops (stop_slots j row c.effective) id fun i k _ hk _ => ?_
          rcases hawaits i k hk with hstill | hlisted
          · exact .inl hstill
          · rcases hlisted.of_cons with ⟨-, -, -, hcontainer⟩ | hlisted
            · rw [hid] at hcontainer
              cases hcontainer
            · exact .inr hlisted
        | some containerId =>
          rw [hid] at h
          rw [← Option.some.inj h]
          refine guarded_loop hs hloops (stop_slots j row c.effective) id fun i k _ hk _ => ?_
          rcases hawaits i k hk with hstill | hlisted
          · exact .inl hstill
          · rcases hlisted.of_cons with ⟨hj, -, -, hcontainer⟩ | hlisted
            · rw [hid] at hcontainer
              exact .inr (.inl ⟨hj, Option.some.inj hcontainer⟩)
            · exact .inr (.inr hlisted)
  | inspect recorded j row containerId rest stillRunning =>
    have hloops : s.Loops := by
      unfold Loops
      rw [hq]
      trivial
    rw [hq] at h
    rw [← Option.some.inj h]
    refine guarded_loop hs hloops hsame id fun i k hrunning hk _ => ?_
    unfold Awaited at hk
    rw [hq] at hk
    rcases hk with hstill | ⟨rfl, rfl⟩ | hlisted
    · left
      split
      · simp
      · exact hstill
    · -- the container runs, and is found running
      left
      rw [if_pos (hok.inspected c _ _ _ _ _ _ rfl hq ⟨k, hrunning, rfl⟩)]
      simp
    · exact .inr hlisted

/-- One step keeps the invariant. -/
theorem guarded_step {a : SpaceAction n} (hs : s.Guarded manifestUsesArchive)
    (hok : s.Undisturbed manifestUsesArchive a) (h : Step manifestUsesArchive s a t) :
    t.Guarded manifestUsesArchive := by
  unfold Step next at h
  cases a with
  | quiesce c => exact guarded_quiesce hs hok h
  | app i act =>
    dsimp only at h
    split at h
    · cases h
    · next hrestarts =>
      obtain ⟨u, hu, rfl⟩ := Option.map_eq_some_iff.mp h
      exact guarded_app hs hok (by simpa using hrestarts) hu
  | inFlight i j c =>
    obtain ⟨p, hp, rfl⟩ := Option.map_eq_some_iff.mp h
    exact guarded_inFlight hs hok hp
  | ended =>
    dsimp only at h
    split at h
    · rw [← Option.some.inj h]
      exact
        { loops := fun h => False.elim h
          returned := fun h => False.elim h
          fresh := fun h => h.elim (fun h => by cases h) False.elim }
    · rw [← Option.some.inj h]
      exact
        { loops := fun h => False.elim h
          returned := fun h => False.elim h
          fresh := fun h => h.elim (fun h => by cases h) False.elim }
    · cases h

/-- The quiesce step returns when there is no row to come and nothing was found running. -/
theorem returns_cases {a : SpaceAction n} (h : Step manifestUsesArchive s a t)
    (hbefore : ¬ s.Returned) (hafter : t.Returned) :
    ∃ recorded, s.quiesce = .next recorded [] [] ∧ t.slots = s.handOver := by
  unfold Step next at h
  cases a with
  | app i act =>
    dsimp only at h
    split at h
    · cases h
    · obtain ⟨u, -, rfl⟩ := Option.map_eq_some_iff.mp h
      exact absurd hafter hbefore
  | inFlight i j c =>
    obtain ⟨p, -, rfl⟩ := Option.map_eq_some_iff.mp h
    exact absurd hafter hbefore
  | ended =>
    dsimp only at h
    split at h
    · rw [← Option.some.inj h] at hafter
      exact False.elim hafter
    · rw [← Option.some.inj h] at hafter
      exact False.elim hafter
    · cases h
  | quiesce c =>
    dsimp only [quiesceStep] at h
    split at h
    · rw [← Option.some.inj h] at hafter
      exact False.elim hafter
    · next recorded stillRunning hq =>
      split at h
      · next hnone =>
        rw [← Option.some.inj h]
        exact ⟨recorded, hnone ▸ hq, rfl⟩
      · rw [← Option.some.inj h] at hafter
        exact False.elim hafter
    · split at h
      · rw [← Option.some.inj h] at hafter
        exact False.elim hafter
      · rw [← Option.some.inj h] at hafter
        unfold Returned at hafter
        split at hafter
        · next heq =>
          dsimp only at heq
          split at heq <;> cases heq
        · exact hafter.elim
    · rw [← Option.some.inj h] at hafter
      exact False.elim hafter
    · cases h
    · cases h
    · cases h

/-- A step from a state in which the invariant holds is as the switch relies on. -/
theorem quiet_of_guarded {a : SpaceAction n} (hs : s.Guarded manifestUsesArchive)
    (hok : s.Undisturbed manifestUsesArchive a) (h : Step manifestUsesArchive s a t) :
    s.Quiet manifestUsesArchive a t where
  stopped hbefore hafter i hi := by
    obtain ⟨recorded, hq, hslots⟩ := returns_cases h hbefore hafter
    rw [hslots] at hi ⊢
    have hloops : s.Loops := by
      unfold Loops
      rw [hq]
      trivial
    -- nothing is awaited any more
    refine List.eq_nil_iff_forall_not_mem.mpr fun k hk => ?_
    have hawaited := (hs.loops hloops i hi).2 k hk
    unfold Awaited at hawaited
    rw [hq] at hawaited
    rcases hawaited with hstill | ⟨row, hmem, -⟩
    · exact hstill rfl
    · cases hmem
  stays hreturned i j c ha huses := by
    subst ha
    obtain ⟨p, hp, rfl⟩ := Option.map_eq_some_iff.mp h
    simp only [setSlot, Function.update_self] at huses ⊢
    exact running_subset (still_of_inFlight hs hok hreturned hp huses).1

/-- Any apps with any containers, before the switch. -/
def start (servers : Fin n → Server) : Space n where
  slots i := { servers i with inFlight := [] }
  quiesce := .idle

theorem guarded_start (servers : Fin n → Server) : (start servers).Guarded manifestUsesArchive where
  loops h := False.elim h
  returned h := False.elim h
  fresh _ _ := rfl

/-- In every run whose steps meet the condition, the switch goes on only when no app that uses the archive
runs, and what was in flight starts none. -/
theorem quiet_of_reach (manifestUsesArchive : String → Bool) (servers : Fin n → Server)
    {s t : Space n} {a : SpaceAction n}
    (hrun : Reach (Step manifestUsesArchive) (Undisturbed manifestUsesArchive) (start servers) s)
    (hok : s.Undisturbed manifestUsesArchive a) (h : Step manifestUsesArchive s a t) :
    s.Quiet manifestUsesArchive a t := by
  have hs : s.Guarded manifestUsesArchive :=
    hrun.invariant (Guarded manifestUsesArchive) (guarded_start servers)
      fun _ _ _ hs hok h => guarded_step hs hok h
  exact quiet_of_guarded hs hok h

end Space

/-! ## Two spaces with one app -/

/-- An app that uses the archive, with a container that runs. -/
def archiveApp (status : Status) : Server where
  shared :=
    { row := some
        { name := "notes", status := status, containerId := some "c1", errorMessage := none,
          repoPath := "/apps/notes/repo", manifestRaw := some "archive", createdAt := 0 }
      containers := [⟨"c1", "openhost-notes", true⟩] }
  tasks := []
  serving := true

/-- A manifest that is nothing but the one word. -/
def namesArchive (raw : String) : Bool := raw = "archive"

theorem undisturbed_quiesce {s : Space 1} {c : QuiesceAnswer}
    (hread : s.quiesce = .idle → (s.slots 0).Settled)
    (hgone : ∀ recorded i row containerId rest stillRunning,
      s.quiesce = .inspect recorded i row containerId rest stillRunning →
        (s.slots 0).shared.running = []) :
    s.Undisturbed namesArchive (.quiesce c) where
  read _ _ hidle i _ := Subsingleton.elim (0 : Fin 1) i ▸ hread hidle
  inspected _ _ i _ _ _ _ _ hq hk := by
    obtain ⟨k, hk, -⟩ := hk
    rw [← Subsingleton.elim (0 : Fin 1) i, hgone _ _ _ _ _ _ hq] at hk
    cases hk
  begins _ _ _ ha := by cases ha
  converts _ _ _ := ⟨fun _ ha => (by cases ha), fun _ _ ha => (by cases ha)⟩

/-- The next step of the quiesce step, where podman does what it is asked. -/
def Space.goesOn (s : Space 1) : Space 1 := (s.quiesceStep namesArchive {}).getD s

/-- The space with the one app. -/
def archiveSpace (status : Status) : Space 1 := .start fun _ => archiveApp status

/-- The rows are read, the app is stopped, and its container is not found running. -/
theorem reach_inspected : Reach (Space.Step namesArchive) (Space.Undisturbed namesArchive)
    (archiveSpace .running) (archiveSpace .running).goesOn.goesOn.goesOn := by
  have hsettled : ((archiveSpace .running).slots 0).Settled := by
    constructor
    · intro k hk
      rw [List.mem_singleton.mp hk]
      exact ⟨_, rfl, rfl, rfl⟩
    · intro t ht
      cases ht
  have hread : (archiveSpace .running).Undisturbed namesArchive (.quiesce {}) :=
    undisturbed_quiesce (fun _ => hsettled) fun _ _ _ _ _ _ h => by cases h
  have hstops : (archiveSpace .running).goesOn.Undisturbed namesArchive (.quiesce {}) :=
    undisturbed_quiesce (fun h => by cases h) fun _ _ _ _ _ _ h => by cases h
  have hinspects : (archiveSpace .running).goesOn.goesOn.Undisturbed namesArchive (.quiesce {}) :=
    undisturbed_quiesce (fun h => by cases h) fun _ _ _ _ _ _ _ => rfl
  exact .step (.step (.step .refl hread rfl) hstops rfl) hinspects rfl

/-- The app is stopped, and the switch goes on. -/
theorem quiet_archiveApp :
    (archiveSpace .running).goesOn.goesOn.goesOn.goesOn.Returned ∧
      (archiveSpace .running).goesOn.goesOn.goesOn.Quiet namesArchive (.quiesce {})
        (archiveSpace .running).goesOn.goesOn.goesOn.goesOn :=
  ⟨trivial, Space.quiet_of_reach namesArchive (fun _ => archiveApp .running) reach_inspected
    (undisturbed_quiesce (fun h => by cases h) fun _ _ _ _ _ _ h => by cases h) rfl⟩

/-- An app in the status 'error' is passed over, and its container goes on running. -/
theorem not_quiet_error :
    Reach (Space.Step namesArchive) (fun _ _ => True) (archiveSpace .error)
        (archiveSpace .error).goesOn.goesOn ∧
      (archiveSpace .error).goesOn.goesOn.Step namesArchive (.quiesce {})
        (archiveSpace .error).goesOn.goesOn.goesOn ∧
      ¬ (archiveSpace .error).goesOn.goesOn.Quiet namesArchive (.quiesce {})
        (archiveSpace .error).goesOn.goesOn.goesOn := by
  refine ⟨.step (a := .quiesce {}) (.step (a := .quiesce {}) .refl trivial rfl) trivial rfl, rfl,
    fun hquiet => ?_⟩
  have hrunning := hquiet.stopped id trivial 0 rfl
  cases hrunning

end OpenHost.Apps
