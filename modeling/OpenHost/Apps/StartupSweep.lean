import Mathlib.Data.List.Nodup
import OpenHost.Apps.Lifecycle
import OpenHost.Apps.Images

/-!
# The startup sweep

`check_app_status` over the whole `apps` table: a loop over the apps that should be up, then
`_recover_cache_corrupt_apps` over the failed ones, with two lists of apps to recover.  Row by row the
sweep is `checkAppStatus`, and each recovery that this asks for is queued once.  What it takes for
granted is that a row of an app that was inserted since the process started has a deploy worker.
-/

namespace OpenHost.Apps

/-! ## The table and the host -/

/-- A row of the `apps` table. -/
structure AppRow where
  appId : String
  row : Row
  deriving DecidableEq

/-- The `apps` table, of which `app_id` is the primary key. -/
structure AppsTable where
  rows : List AppRow
  key : (rows.map AppRow.appId).Nodup

/-- What the sweep learns from the clock, podman and the file system. -/
structure Host where
  /-- `_PROCESS_START_UTC` -/
  processStart : Nat
  isContainerRunning : String → Bool
  isDir : String → Bool
  imageExists : String → Bool

/-- `UPDATE apps SET … WHERE app_id = ?` -/
def updateWhere (appId : String) (f : Row → Row) (apps : List AppRow) : List AppRow :=
  apps.map fun a => if a.appId = appId then { a with row := f a.row } else a

/-- What the host says about one row. -/
def Host.answer (h : Host) (row : Row) : BootAnswer where
  processStart := h.processStart
  containerRunning := h.isContainerRunning (row.containerId.getD "")
  repoIsDir := h.isDir row.repoPath
  imageExists := h.imageExists (imageTag row.name)

/-- `promotion_restart` -/
def Row.promotionRestart (row : Row) : Bool :=
  row.status = .starting && row.errorMessage = some primaryDomainRestartMarker

/-- `not row["container_id"]` -/
def Row.noContainer (row : Row) : Bool := row.containerId.isNone || row.containerId = some ""

/-- `alive` -/
def Host.alive (h : Host) (row : Row) : Bool :=
  h.isContainerRunning (row.containerId.getD "") &&
    (row.containerId.isSome && row.containerId ≠ some "")

/-- The row is taken for one of a deploy worker. -/
def Host.ofThisProcess (h : Host) (row : Row) : Bool :=
  !row.promotionRestart && h.processStart ≤ row.createdAt

/-- `has_repo` -/
def Host.hasRepo (h : Host) (row : Row) : Bool := row.repoPath ≠ "" && h.isDir row.repoPath

/-- `has_manifest` -/
def Host.hasManifest (h : Host) (row : Row) : Bool :=
  (row.manifestRaw.isSome && row.manifestRaw ≠ some "") || h.hasRepo row

/-- `needs_build` -/
def Host.needsBuild (h : Host) (row : Row) : Bool :=
  row.status = .building || !h.imageExists (imageTag row.name)

/-! ## The sweep -/

/-- The rows, `apps_to_recover` and `promoted_apps_to_recover`. -/
structure Sweep where
  apps : List AppRow
  toRecover : List (String × Bool)
  promoted : List (String × Bool)

/-- The body of the loop, for a row that was fetched before it. -/
def Sweep.visit (h : Host) (s : Sweep) (a : AppRow) : Sweep :=
  if a.row.status = .starting && h.ofThisProcess a.row then s
  else if h.alive a.row && a.row.status ≠ .starting then
    if a.row.status = .building then
      { s with apps := updateWhere a.appId (fun r => { r with status := .running }) s.apps }
    else s
  else if !h.hasManifest a.row || (h.needsBuild a.row && !h.hasRepo a.row) then
    { s with apps := updateWhere a.appId (Row.setError (cannotRecover a.row.repoPath)) s.apps }
  else
    let apps := updateWhere a.appId (fun r => { r with status := .starting }) s.apps
    if a.row.noContainer && h.ofThisProcess a.row then { s with apps := apps }
    else if a.row.promotionRestart then
      { s with apps := apps, promoted := s.promoted ++ [(a.appId, h.needsBuild a.row)] }
    else { s with apps := apps, toRecover := s.toRecover ++ [(a.appId, h.needsBuild a.row)] }

/-- A failed row that `_recover_cache_corrupt_apps` takes up. -/
def Host.cacheCorrupt (h : Host) (row : Row) : Bool :=
  row.status = .error &&
    (likeInfix buildCacheCorruptMarker (row.errorMessage.getD "") && h.hasRepo row)

/-- `_recover_cache_corrupt_apps`: the rows afterwards and the apps to rebuild. -/
def recoverCacheCorruptApps (h : Host) (apps : List AppRow) : List AppRow × List String :=
  let corrupt := (apps.filter fun a => h.cacheCorrupt a.row).map AppRow.appId
  (corrupt.foldl (fun apps appId =>
    updateWhere appId (fun r => { r with status := .starting, errorMessage := none }) apps) apps,
   corrupt)

/-- `check_app_status` -/
def sweepApps (h : Host) (t : AppsTable) : Sweep :=
  let s := (t.rows.filter fun a => wasRunning a.row).foldl (Sweep.visit h) ⟨t.rows, [], []⟩
  let (apps, corrupt) := recoverCacheCorruptApps h s.apps
  { s with apps := apps, toRecover := s.toRecover ++ corrupt.map fun appId => (appId, true) }

/-- What is recovered, in the order in which it is: the promoted apps before the server serves. -/
def Sweep.queue (s : Sweep) : List (String × Bool) := s.promoted ++ s.toRecover

/-! ## Row by row -/

section

variable {h : Host} {a : AppRow} {apps : List AppRow}

@[simp] theorem updateWhere_id (appId : String) (apps : List AppRow) :
    updateWhere appId id apps = apps := by
  simp [updateWhere]

/-- The recovery that the sweep asks for. -/
def Host.recovery (h : Host) (row : Row) : Option Bool := (checkAppStatus (h.answer row) row).2

/-- The row after the sweep. -/
def Host.swept (h : Host) (row : Row) : Row := (checkAppStatus (h.answer row) row).1

/-- The entry of a row in the lists. -/
def Host.entry (h : Host) (a : AppRow) : Option (String × Bool) :=
  (h.recovery a.row).map fun needsBuild => (a.appId, needsBuild)

/-- `checkAppStatus` of a row that was up. -/
theorem checkAppStatus_of_wasRunning {row : Row} (hup : wasRunning row = true) :
    checkAppStatus (h.answer row) row =
      if row.status = .starting && h.ofThisProcess row then (row, none)
      else if h.alive row && row.status ≠ .starting then
        (if row.status = .building then { row with status := .running } else row, none)
      else if !h.hasManifest row || (h.needsBuild row && !h.hasRepo row) then
        (row.setError (cannotRecover row.repoPath), none)
      else if row.noContainer && h.ofThisProcess row then ({ row with status := .starting }, none)
      else ({ row with status := .starting }, some (h.needsBuild row)) := by
  obtain ⟨name, status, containerId, errorMessage, repoPath, manifestRaw, createdAt⟩ := row
  cases status with
  | running | starting | building => rfl
  | stopped | error | removing => cases hup

/-- What the loop does to the table and the lists. -/
theorem visit_spec (s : Sweep) (hup : wasRunning a.row = true) :
    ∃ f : Row → Row, f a.row = h.swept a.row ∧ (s.visit h a).apps = updateWhere a.appId f s.apps ∧
      (s.visit h a).promoted = s.promoted ++
        (if a.row.promotionRestart then (h.entry a).toList else []) ∧
      (s.visit h a).toRecover = s.toRecover ++
        (if a.row.promotionRestart then [] else (h.entry a).toList) := by
  have heq := checkAppStatus_of_wasRunning (h := h) hup
  unfold Sweep.visit
  unfold Host.swept Host.entry Host.recovery
  rw [heq]
  split
  · exact ⟨id, rfl, by simp⟩
  split
  · split
    · exact ⟨fun r => { r with status := .running }, rfl, rfl, by simp⟩
    · exact ⟨id, rfl, by simp⟩
  split
  · exact ⟨Row.setError (cannotRecover a.row.repoPath), rfl, rfl, by simp⟩
  dsimp only
  split
  · exact ⟨fun r => { r with status := .starting }, rfl, rfl, by simp⟩
  · cases hpromotion : a.row.promotionRestart with
    | true => exact ⟨fun r => { r with status := .starting }, rfl, rfl, by simp⟩
    | false => exact ⟨fun r => { r with status := .starting }, rfl, rfl, by simp⟩

/-- The loop over rows that are in the table as they were fetched. -/
theorem foldl_visit (l : List AppRow) (hup : ∀ a ∈ l, wasRunning a.row = true)
    (hkey : (l.map AppRow.appId).Nodup) (s : Sweep)
    (hfetched : ∀ a ∈ l, ∀ b ∈ s.apps, b.appId = a.appId → b.row = a.row) :
    (l.foldl (Sweep.visit h) s).apps =
        s.apps.map (fun b => if b.appId ∈ l.map AppRow.appId then { b with row := h.swept b.row } else b) ∧
      (l.foldl (Sweep.visit h) s).promoted =
        s.promoted ++ (l.filter fun a => a.row.promotionRestart).filterMap h.entry ∧
      (l.foldl (Sweep.visit h) s).toRecover =
        s.toRecover ++ (l.filter fun a => !a.row.promotionRestart).filterMap h.entry := by
  induction l generalizing s with
  | nil => simp
  | cons a l ih =>
    obtain ⟨f, hf, happs, hpromoted, htoRecover⟩ := visit_spec s (hup a List.mem_cons_self)
    rw [List.map_cons, List.nodup_cons] at hkey
    have hother : ∀ b ∈ l, b.appId ≠ a.appId := fun b hb heq =>
      hkey.1 (heq ▸ List.mem_map_of_mem hb)
    obtain ⟨ihApps, ihPromoted, ihToRecover⟩ := ih (fun b hb => hup b (List.mem_cons_of_mem a hb))
      hkey.2 (s.visit h a) (by
        -- the visit has changed the row of another app
        intro b hb c hc heq
        rw [happs] at hc
        obtain ⟨d, hd, rfl⟩ := List.mem_map.mp hc
        have hne : d.appId ≠ a.appId := by
          intro hda
          rw [if_pos hda] at heq
          exact hother b hb (heq.symm.trans hda)
        rw [if_neg hne] at heq ⊢
        exact hfetched b (List.mem_cons_of_mem a hb) d hd heq)
    refine ⟨?_, ?_, ?_⟩
    · rw [List.foldl_cons, ihApps, happs, updateWhere, List.map_map]
      refine List.map_congr_left fun b hb => ?_
      rw [Function.comp_apply]
      by_cases hba : b.appId = a.appId
      · have hrow : b.row = a.row := hfetched a List.mem_cons_self b hb hba
        rw [if_pos hba, if_neg (by rw [hba]; exact hkey.1), if_pos (by rw [hba]; exact List.mem_cons_self),
          hrow, hf]
      · rw [if_neg hba]
        simp only [List.map_cons, List.mem_cons, hba, false_or]
    · rw [List.foldl_cons, ihPromoted, hpromoted, List.filter_cons]
      cases hrestart : a.row.promotionRestart with
      | true => cases hentry : h.entry a <;> simp [hentry]
      | false => simp
    · rw [List.foldl_cons, ihToRecover, htoRecover, List.filter_cons]
      cases hrestart : a.row.promotionRestart with
      | true => simp
      | false => cases hentry : h.entry a <;> simp [hentry]

theorem foldl_updateWhere (ids : List String) (f : Row → Row) (hids : ids.Nodup)
    (apps : List AppRow) :
    ids.foldl (fun apps appId => updateWhere appId f apps) apps =
      apps.map fun b => if b.appId ∈ ids then { b with row := f b.row } else b := by
  induction ids generalizing apps with
  | nil => simp
  | cons i ids ih =>
    rw [List.nodup_cons] at hids
    rw [List.foldl_cons, ih hids.2, updateWhere, List.map_map]
    refine List.map_congr_left fun b _ => ?_
    rw [Function.comp_apply]
    by_cases hb : b.appId = i
    · rw [if_pos hb, if_neg (by rw [hb]; exact hids.1), if_pos (by rw [hb]; exact List.mem_cons_self)]
    · rw [if_neg hb]
      simp only [List.mem_cons, hb, false_or]

/-- A row that the loop leaves in error has no repository, so the second pass does not take it up. -/
theorem cacheCorrupt_swept {row : Row} (hup : wasRunning row = true) :
    h.cacheCorrupt (h.swept row) = false := by
  have hne : row.status ≠ .error := by
    intro herror
    simp [wasRunning, herror] at hup
  unfold Host.swept
  rw [checkAppStatus_of_wasRunning hup]
  split
  · simp [Host.cacheCorrupt, hne]
  split
  · split
    · rfl
    · simp [Host.cacheCorrupt, hne]
  split
  · rename_i hlost
    have hrepo : h.hasRepo row = false := by
      simp only [Host.hasManifest, Bool.or_eq_true, Bool.not_eq_true', Bool.or_eq_false_iff,
        Bool.and_eq_true] at hlost
      rcases hlost with ⟨-, hnone⟩ | ⟨-, hnone⟩
      · exact hnone
      · exact hnone
    have hsame : h.hasRepo (row.setError (cannotRecover row.repoPath)) = h.hasRepo row := rfl
    simp [Host.cacheCorrupt, hsame, hrepo]
  · split <;> rfl

/-- `checkAppStatus` of a row that was not up. -/
theorem checkAppStatus_of_not_wasRunning {row : Row} (hup : wasRunning row = false) :
    checkAppStatus (h.answer row) row =
      if h.cacheCorrupt row then ({ row with status := .starting, errorMessage := none }, some true)
      else (row, none) := by
  obtain ⟨name, status, containerId, errorMessage, repoPath, manifestRaw, createdAt⟩ := row
  cases status with
  | running | starting | building => cases hup
  | stopped | error | removing => rfl

theorem not_cacheCorrupt_of_wasRunning {row : Row} (hup : wasRunning row = true) :
    h.cacheCorrupt row = false := by
  have hne : row.status ≠ .error := by
    intro herror
    simp [wasRunning, herror] at hup
  simp [Host.cacheCorrupt, hne]

/-- Rows with a key are told apart by it. -/
theorem mem_ids_filter {t : AppsTable} {p : AppRow → Bool} {b : AppRow} (hb : b ∈ t.rows) :
    b.appId ∈ (t.rows.filter p).map AppRow.appId ↔ p b = true := by
  refine ⟨fun hmem => ?_, fun hp => List.mem_map_of_mem (List.mem_filter.mpr ⟨hb, hp⟩)⟩
  obtain ⟨c, hc, heq⟩ := List.mem_map.mp hmem
  obtain ⟨hc, hp⟩ := List.mem_filter.mp hc
  rwa [← List.inj_on_of_nodup_map t.key hc hb heq]

theorem nodup_ids_filter (t : AppsTable) (p : AppRow → Bool) :
    ((t.rows.filter p).map AppRow.appId).Nodup :=
  t.key.sublist (List.filter_sublist.map _)

/-- The table after the loop. -/
theorem apps_of_loop (h : Host) (t : AppsTable) :
    ((t.rows.filter fun a => wasRunning a.row).foldl (Sweep.visit h) ⟨t.rows, [], []⟩).apps =
      t.rows.map fun b => if wasRunning b.row then { b with row := h.swept b.row } else b := by
  rw [(foldl_visit _ (fun a ha => (List.mem_filter.mp ha).2) (nodup_ids_filter t _) _ ?_).1]
  · refine List.map_congr_left fun b hb => ?_
    simp only [mem_ids_filter hb]
  · intro a ha b hb heq
    rw [List.inj_on_of_nodup_map t.key hb (List.mem_filter.mp ha).1 heq]

/-- The apps that the second pass takes up, in terms of the rows before the sweep. -/
theorem corrupt_of_loop (h : Host) (t : AppsTable) :
    (((t.rows.map fun b => if wasRunning b.row then { b with row := h.swept b.row } else b).filter
        fun a => h.cacheCorrupt a.row).map AppRow.appId) =
      (t.rows.filter fun a => h.cacheCorrupt a.row).map AppRow.appId := by
  rw [List.filter_map, List.map_map]
  have hsame : ∀ b : AppRow,
      h.cacheCorrupt (if wasRunning b.row then { b with row := h.swept b.row } else b).row =
        h.cacheCorrupt b.row := by
    intro b
    split
    · rename_i hup
      rw [cacheCorrupt_swept hup, not_cacheCorrupt_of_wasRunning hup]
    · rfl
  have hfilter : (t.rows.filter ((fun a : AppRow => h.cacheCorrupt a.row) ∘ fun b =>
      if wasRunning b.row then { b with row := h.swept b.row } else b)) =
      t.rows.filter fun a => h.cacheCorrupt a.row :=
    List.filter_congr fun b _ => hsame b
  rw [hfilter]
  refine List.map_congr_left fun b _ => ?_
  rw [Function.comp_apply]
  split <;> rfl

/-- Row by row the sweep is `checkAppStatus`. -/
theorem apps_sweepApps (h : Host) (t : AppsTable) :
    (sweepApps h t).apps = t.rows.map fun b => { b with row := h.swept b.row } := by
  unfold sweepApps recoverCacheCorruptApps
  dsimp only
  rw [apps_of_loop, corrupt_of_loop, foldl_updateWhere _ _ (nodup_ids_filter t _), List.map_map]
  refine List.map_congr_left fun b hb => ?_
  rw [Function.comp_apply]
  cases hup : wasRunning b.row with
  | true =>
    have hnot : b.appId ∉ (t.rows.filter fun a => h.cacheCorrupt a.row).map AppRow.appId := by
      rw [mem_ids_filter hb, not_cacheCorrupt_of_wasRunning hup]
      exact Bool.false_ne_true
    rw [if_pos rfl, if_neg hnot]
  | false =>
    rw [if_neg Bool.false_ne_true, Host.swept, checkAppStatus_of_not_wasRunning hup]
    simp only [mem_ids_filter hb]
    split <;> rfl

/-- Each recovery that is asked for is queued, and nothing else. -/
theorem queue_sweepApps (h : Host) (t : AppsTable) :
    (sweepApps h t).queue.Perm (t.rows.filterMap h.entry) := by
  obtain ⟨-, hpromoted, htoRecover⟩ := foldl_visit (h := h) (t.rows.filter fun a => wasRunning a.row)
    (fun a ha => (List.mem_filter.mp ha).2) (nodup_ids_filter t _) ⟨t.rows, [], []⟩ (by
      intro a ha b hb heq
      rw [List.inj_on_of_nodup_map t.key hb (List.mem_filter.mp ha).1 heq])
  have hcorrupt : ((t.rows.filter fun a => h.cacheCorrupt a.row).map AppRow.appId).map
        (fun appId => (appId, true)) =
      (t.rows.filter fun a => !wasRunning a.row).filterMap h.entry := by
    rw [List.map_map, List.filterMap_filter, ← List.filterMap_eq_map, List.filterMap_filter]
    refine List.filterMap_congr fun b _ => ?_
    cases hup : wasRunning b.row with
    | true => simp [not_cacheCorrupt_of_wasRunning hup]
    | false =>
      rw [Host.entry, Host.recovery, checkAppStatus_of_not_wasRunning hup]
      cases h.cacheCorrupt b.row <;> rfl
  have hqueue : (sweepApps h t).queue =
      ((t.rows.filter fun a => wasRunning a.row).filter fun a => a.row.promotionRestart).filterMap
          h.entry ++
        (((t.rows.filter fun a => wasRunning a.row).filter fun a => !a.row.promotionRestart).filterMap
          h.entry ++
        (t.rows.filter fun a => !wasRunning a.row).filterMap h.entry) := by
    rw [← hcorrupt]
    unfold Sweep.queue sweepApps recoverCacheCorruptApps
    dsimp only
    rw [apps_of_loop, corrupt_of_loop, hpromoted, htoRecover]
    rfl
  rw [hqueue, ← List.append_assoc, ← List.filterMap_append, ← List.filterMap_append]
  refine List.Perm.filterMap _ ?_
  exact ((List.filter_append_perm _ _).append_right _).trans (List.filter_append_perm _ _)

end

/-! ## Where every app ends up -/

/-- What may become of an app that was up. -/
inductive Place where
  /-- It is 'running' with a container that runs. -/
  | live
  /-- It is in 'error'. -/
  | failed
  /-- It is set to 'starting' and queued once. -/
  | queued
  /-- It is 'starting', and a deploy worker of this process is running for it. -/
  | deploying
  deriving DecidableEq

/-- By the row after the sweep, the number of times the app is queued, and its deploy worker. -/
def Place.Holds (h : Host) (after : Row) (queued : Nat) (worker : Prop) : Place → Prop
  | .live => after.status = .running ∧ h.alive after = true ∧ queued = 0
  | .failed => after.status = .error ∧ queued = 0
  | .queued => after.status = .starting ∧ queued = 1
  | .deploying => after.status = .starting ∧ queued = 0 ∧ worker

/-- One app of the sweep: its row before and after, and the number of times it is queued. -/
structure Accounted (h : Host) (worker : String → Prop) (before after : AppRow) (queued : Nat) :
    Prop where
  sameApp : after.appId = before.appId
  up : wasRunning before.row = true →
    ∃! p : Place, p.Holds h after.row queued (worker before.appId)
  corrupt : h.cacheCorrupt before.row = true → queued = 1
  other : wasRunning before.row = false → h.cacheCorrupt before.row = false →
    after.row = before.row ∧ queued = 0
  /-- It is not queued beside its deploy worker. -/
  alone : worker before.appId → queued = 0

/-- Every app is accounted for, and no other is queued; `worker` are the apps with a deploy worker of
this process. -/
def AllAccounted (h : Host) (worker : String → Prop) (t : AppsTable) (s : Sweep) : Prop :=
  List.Forall₂ (fun before after =>
      Accounted h worker before after ((s.queue.map Prod.fst).count before.appId)) t.rows s.apps ∧
    ∀ e ∈ s.queue, ∃ a ∈ t.rows, a.appId = e.1

/-- There is what the app is launched from. -/
def Host.recoverable (h : Host) (row : Row) : Bool :=
  h.hasManifest row && (!h.needsBuild row || h.hasRepo row)

/-- An app that was up and is taken for one of a deploy worker: its row says 'starting', or it could be
recovered and has no container yet. -/
def Host.leftAlone (h : Host) (row : Row) : Bool :=
  wasRunning row && h.ofThisProcess row &&
    (row.status = .starting || (row.noContainer && h.recoverable row))

/-- A failed app to rebuild, or one that was up, can be recovered, has lost its container or must start
a new one, and is not taken for one of a deploy worker. -/
def Host.toRecover (h : Host) (row : Row) : Bool :=
  h.cacheCorrupt row ||
    (wasRunning row && h.recoverable row && !(h.alive row && row.status ≠ .starting) &&
      !(h.ofThisProcess row && (row.status = .starting || row.noContainer)))

section

variable {h : Host}

theorem not_alive_of_noContainer {row : Row} (hnone : row.noContainer = true) :
    h.alive row = false := by
  rcases Bool.or_eq_true_iff.mp hnone with hnone | hempty
  · rw [Option.isNone_iff_eq_none] at hnone
    simp [Host.alive, hnone]
  · rw [decide_eq_true_eq] at hempty
    simp [Host.alive, hempty]

/-- What becomes of a row that was up. -/
theorem swept_cases {row : Row} (hup : wasRunning row = true) :
    (h.leftAlone row = true ∧ h.recovery row = none ∧ h.toRecover row = false ∧
        (h.swept row).status = .starting) ∨
      (h.leftAlone row = false ∧ (h.recovery row).isSome = true ∧ h.toRecover row = true ∧
        (h.swept row).status = .starting) ∨
      (h.leftAlone row = false ∧ h.recovery row = none ∧ h.toRecover row = false ∧
        ((h.swept row).status = .error ∨
          (h.swept row).status = .running ∧ h.alive (h.swept row) = true)) := by
  have hcorrupt := not_cacheCorrupt_of_wasRunning (h := h) hup
  unfold Host.recovery Host.swept Host.toRecover Host.leftAlone
  rw [checkAppStatus_of_wasRunning hup, hup, hcorrupt]
  by_cases hours : (decide (row.status = .starting) && h.ofThisProcess row) = true
  · obtain ⟨hstarting, hthis⟩ := Bool.and_eq_true_iff.mp hours
    rw [if_pos hours, hthis, hstarting]
    simp only [decide_eq_true_eq] at hstarting
    exact Or.inl ⟨rfl, rfl, by simp, hstarting⟩
  rw [if_neg hours]
  by_cases hlive : (h.alive row && decide (row.status ≠ .starting)) = true
  · obtain ⟨halive, hnot⟩ := Bool.and_eq_true_iff.mp hlive
    have hcontainer : row.noContainer = false := by
      rw [Bool.eq_false_iff]
      intro hnone
      rw [not_alive_of_noContainer hnone] at halive
      cases halive
    rw [if_pos hlive, hlive, hcontainer]
    refine Or.inr (Or.inr ⟨?_, rfl, by simp, Or.inr ?_⟩)
    · simp only [decide_eq_true_eq] at hnot
      simp [hnot]
    · split
      · exact ⟨rfl, halive⟩
      · rename_i hbuilding
        refine ⟨?_, halive⟩
        simp only [decide_eq_true_eq] at hnot
        cases hs : row.status with
        | running => rfl
        | building => exact absurd hs hbuilding
        | starting => exact absurd hs hnot
        | stopped | error | removing => simp [wasRunning, hs] at hup
  have hlost : (!h.hasManifest row || (h.needsBuild row && !h.hasRepo row)) = !h.recoverable row := by
    rw [Host.recoverable, Bool.not_and, Bool.not_or, Bool.not_not]
  rw [if_neg hlive, hlost, Bool.eq_false_iff.mpr hlive]
  cases hrecoverable : h.recoverable row with
  | false =>
    rw [if_pos (show (!false) = true from rfl)]
    refine Or.inr (Or.inr ⟨?_, rfl, by simp, Or.inl rfl⟩)
    rw [Bool.and_comm] at hours
    simpa using hours
  | true =>
    rw [if_neg (show ¬ (!true) = true from Bool.false_ne_true)]
    by_cases hnew : (row.noContainer && h.ofThisProcess row) = true
    · obtain ⟨hnone, hthis⟩ := Bool.and_eq_true_iff.mp hnew
      rw [if_pos hnew, hnone, hthis]
      exact Or.inl ⟨by simp, rfl, by simp, rfl⟩
    · have hnot : (h.ofThisProcess row && (decide (row.status = .starting) || row.noContainer)) = false := by
        rw [Bool.and_or_distrib_left, Bool.and_comm, Bool.eq_false_iff.mpr hours, Bool.and_comm,
          Bool.eq_false_iff.mpr hnew]
        rfl
      rw [if_neg hnew, hnot]
      refine Or.inr (Or.inl ⟨?_, rfl, rfl, rfl⟩)
      simpa using hnot

theorem isSome_recovery (row : Row) : (h.recovery row).isSome = h.toRecover row := by
  cases hup : wasRunning row with
  | true =>
    rcases swept_cases (h := h) hup with ⟨-, hnone, hnot, -⟩ | ⟨-, hsome, hto, -⟩ | ⟨-, hnone, hnot, -⟩
    · rw [hnone, hnot]
      rfl
    · rw [hsome, hto]
    · rw [hnone, hnot]
      rfl
  | false =>
    rw [Host.recovery, checkAppStatus_of_not_wasRunning hup, Host.toRecover, hup]
    cases h.cacheCorrupt row <;> rfl

/-- The apps in the lists, each one once. -/
theorem queued_sweepApps (h : Host) (t : AppsTable) :
    ((sweepApps h t).queue.map Prod.fst).Perm
      ((t.rows.filter fun a => h.toRecover a.row).map AppRow.appId) := by
  have hids : (t.rows.filterMap h.entry).map Prod.fst =
      (t.rows.filter fun a => h.toRecover a.row).map AppRow.appId := by
    rw [List.map_filterMap, ← List.filterMap_eq_map, List.filterMap_filter]
    refine List.filterMap_congr fun a _ => ?_
    rw [← isSome_recovery, Host.entry]
    cases h.recovery a.row <;> rfl
  rw [← hids]
  exact (queue_sweepApps h t).map Prod.fst

theorem count_queued {t : AppsTable} {a : AppRow} (ha : a ∈ t.rows) :
    ((sweepApps h t).queue.map Prod.fst).count a.appId = if h.toRecover a.row then 1 else 0 := by
  rw [(queued_sweepApps h t).count_eq, (nodup_ids_filter t _).count]
  simp only [mem_ids_filter ha]

variable {worker : String → Prop} {a b : AppRow} {n : Nat}

/-- Status and lists tell the places apart. -/
theorem Place.unique {p q : Place} {after : Row} {w : Prop} (hp : p.Holds h after n w)
    (hq : q.Holds h after n w) : p = q := by
  have hstatus : ∀ st st', after.status = st → after.status = st' → st = st' := by
    rintro st st' rfl rfl
    rfl
  cases p with
  | live =>
    cases q with
    | live => rfl
    | failed | queued | deploying => cases hstatus _ _ hp.1 hq.1
  | failed =>
    cases q with
    | failed => rfl
    | live | queued | deploying => cases hstatus _ _ hp.1 hq.1
  | queued =>
    cases q with
    | queued => rfl
    | live | failed => cases hstatus _ _ hp.1 hq.1
    | deploying => cases hp.2.symm.trans hq.2.1
  | deploying =>
    cases q with
    | deploying => rfl
    | live | failed => cases hstatus _ _ hp.1 hq.1
    | queued => cases hp.2.1.symm.trans hq.2

theorem accounted_iff_of_up (hup : wasRunning a.row = true) (hid : b.appId = a.appId) :
    Accounted h worker a b n ↔
      (∃ p : Place, p.Holds h b.row n (worker a.appId)) ∧ (worker a.appId → n = 0) := by
  refine ⟨fun hacc => ⟨(hacc.up hup).exists, hacc.alone⟩, fun ⟨⟨p, hp⟩, halone⟩ => ?_⟩
  refine ⟨hid, fun _ => ⟨p, hp, fun q hq => Place.unique hq hp⟩, fun hcorrupt => ?_, fun hdown => ?_,
    halone⟩
  · rw [not_cacheCorrupt_of_wasRunning hup] at hcorrupt
    cases hcorrupt
  · rw [hup] at hdown
    cases hdown

theorem accounted_iff_of_down (hup : wasRunning a.row = false) (hid : b.appId = a.appId) :
    Accounted h worker a b n ↔
      (h.cacheCorrupt a.row = true → n = 1) ∧
        (h.cacheCorrupt a.row = false → b.row = a.row ∧ n = 0) ∧ (worker a.appId → n = 0) := by
  refine ⟨fun hacc => ⟨hacc.corrupt, hacc.other hup, hacc.alone⟩, fun ⟨hcorrupt, hother, halone⟩ => ?_⟩
  refine ⟨hid, fun hrunning => ?_, hcorrupt, fun _ => hother, halone⟩
  rw [hup] at hrunning
  cases hrunning

/-- One app is accounted for exactly when the sweep is not mistaken about its worker. -/
theorem accounted_iff (a : AppRow) :
    Accounted h worker a { a with row := h.swept a.row } (if h.toRecover a.row then 1 else 0) ↔
      (h.leftAlone a.row = true → worker a.appId) ∧ (h.toRecover a.row = true → ¬ worker a.appId) := by
  cases hup : wasRunning a.row with
  | true =>
    rw [accounted_iff_of_up (b := { a with row := h.swept a.row }) hup rfl]
    rcases swept_cases (h := h) hup with
      ⟨halone, -, hnot, hstatus⟩ | ⟨halone, -, hto, hstatus⟩ | ⟨halone, -, hnot, hstatus⟩
    · rw [halone, hnot]
      refine ⟨fun ⟨⟨p, hp⟩, _⟩ => ⟨fun _ => ?_, nofun⟩, fun ⟨hworker, _⟩ =>
        ⟨⟨.deploying, hstatus, rfl, hworker rfl⟩, fun _ => rfl⟩⟩
      -- 'starting' and not queued
      cases p with
      | live => cases hstatus.symm.trans hp.1
      | failed => cases hstatus.symm.trans hp.1
      | queued => cases hp.2
      | deploying => exact hp.2.2
    · rw [halone, hto]
      exact ⟨fun ⟨_, hzero⟩ => ⟨nofun, fun _ hworker => Nat.one_ne_zero (hzero hworker)⟩,
        fun ⟨_, hnone⟩ => ⟨⟨.queued, hstatus, rfl⟩, fun hworker => absurd hworker (hnone rfl)⟩⟩
    · rw [halone, hnot]
      refine iff_of_true ⟨?_, fun _ => rfl⟩ ⟨nofun, nofun⟩
      rcases hstatus with herror | ⟨hrunning, halive⟩
      · exact ⟨.failed, herror, rfl⟩
      · exact ⟨.live, hrunning, halive, rfl⟩
  | false =>
    have halone : h.leftAlone a.row = false := by rw [Host.leftAlone, hup]; rfl
    have hto : h.toRecover a.row = h.cacheCorrupt a.row := by rw [Host.toRecover, hup]; simp
    rw [accounted_iff_of_down (b := { a with row := h.swept a.row }) hup rfl, halone, hto]
    cases hcorrupt : h.cacheCorrupt a.row with
    | true =>
      exact ⟨fun ⟨_, _, hzero⟩ => ⟨nofun, fun _ hworker => Nat.one_ne_zero (hzero hworker)⟩,
        fun ⟨_, hnone⟩ => ⟨fun _ => rfl, nofun, fun hworker => absurd hworker (hnone rfl)⟩⟩
    | false =>
      have hsame : h.swept a.row = a.row := by
        rw [Host.swept, checkAppStatus_of_not_wasRunning hup, hcorrupt]
        rfl
      exact iff_of_true ⟨nofun, fun _ => ⟨hsame, rfl⟩, fun _ => rfl⟩ ⟨nofun, nofun⟩

end

/-- The sweep accounts for every app exactly when the rows that it leaves to deploy workers have one
and the rows that it recovers have none. -/
theorem allAccounted_iff (h : Host) (worker : String → Prop) (t : AppsTable) :
    AllAccounted h worker t (sweepApps h t) ↔
      ∀ a ∈ t.rows, (h.leftAlone a.row = true → worker a.appId) ∧
        (h.toRecover a.row = true → ¬ worker a.appId) := by
  have hqueued : ∀ e ∈ (sweepApps h t).queue, ∃ a ∈ t.rows, a.appId = e.1 := by
    intro e he
    have hmem := (queued_sweepApps h t).mem_iff.mp (List.mem_map_of_mem he)
    obtain ⟨a, ha, heq⟩ := List.mem_map.mp hmem
    exact ⟨a, (List.mem_filter.mp ha).1, heq⟩
  rw [AllAccounted, and_iff_left hqueued, apps_sweepApps, List.forall₂_map_right_iff,
    List.forall₂_same]
  refine forall₂_congr fun a ha => ?_
  rw [count_queued ha]
  exact accounted_iff a

/-- An app whose row was inserted just before the process died. -/
def interruptedRow : Row where
  name := "app"
  status := .building
  containerId := none
  errorMessage := none
  repoPath := "/repo"
  manifestRaw := some "name = \"app\""
  createdAt := 1700000000

def interrupted : AppsTable where
  rows := [⟨"a1", interruptedRow⟩]
  key := List.nodup_singleton _

/-- The process is up again within the second. -/
def withinTheSecond : Host where
  processStart := 1700000000
  isContainerRunning := fun _ => false
  isDir := fun _ => true
  imageExists := fun _ => false

/-- The app is left to a worker that died with the process before. -/
theorem interrupted_not_accounted :
    ¬ AllAccounted withinTheSecond (fun _ => False) interrupted
      (sweepApps withinTheSecond interrupted) := by
  rintro ⟨hall, -⟩
  cases hall with
  | cons hacc _ =>
    obtain ⟨p, hp, -⟩ := hacc.up rfl
    cases p with
    | live => cases hp.1
    | failed => cases hp.1
    | queued => cases hp.2
    | deploying => exact hp.2.2

end OpenHost.Apps
