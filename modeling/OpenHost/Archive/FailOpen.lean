import OpenHost.Archive.Migration

/-!
# Failing open

When a step of the `try` block raises, the `except` block points the volume back at the source store
and restarts the mount, or says in `state_message` that it could not, and raises.

- the committed row keeps its settings;
- no object of any store is deleted;
- the volume names the source store and a mount is live on it, or the failure is recorded.

Two schedules escape: a `COMMIT` that fails and leaves its transaction open for the next `COMMIT` to
complete (`CommitLeftOpen`), and a mount of the new store that outlives the restore
(`LateMount`).
-/

namespace OpenHost.Archive

open OpenHost.Proc
open OpenHost.Text

/-! ## What holds across the steps of a migration

A relation that holds across every kind of step `bringOver` and `restoreSource` take holds across
the whole of them. -/

/-- `R` holds across every step before the row is updated, in a call that picked `volume`. -/
structure AcrossSteps (env : Env) (cfg : Config) (volume : String) (R : World → World → Prop) :
    Prop where
  service : ∀ w w', Same World.besideService w w' → R w w'
  install : Within R (ensureJuicefsInstalled env)
  formatLocal : Within R (ensureLocalVolumeFormatted env cfg volume)
  formatS3 : ∀ store, Within R (formatS3Volume env store volume)
  repoint : ∀ st storage bucket creds,
    Within R (reconfigureVolumeStorage env st storage bucket creds)
  copyFiles : ∀ src dst sel w, R w (World.copyFiles src dst sel w)
  copyObjects : ∀ src dst sel w, R w (World.copyObjects src dst sel w)

/-- A relation that does not look at the volume. -/
theorem AcrossSteps.of_frames {env : Env} {cfg : Config} {volume : String}
    {R : World → World → Prop} (service : ∀ w w', Same World.besideService w w' → R w w')
    (setup : ∀ w w', Same World.besideSetup w w' → R w w')
    (repoint : ∀ w w', Same World.besideVolume w w' → R w w')
    (copyFiles : ∀ src dst sel w, R w (World.copyFiles src dst sel w))
    (copyObjects : ∀ src dst sel w, R w (World.copyObjects src dst sel w)) :
    AcrossSteps env cfg volume R where
  service := service
  install := (ensureJuicefsInstalled_besideSetup env).mono setup
  formatLocal := (ensureLocalVolumeFormatted_besideSetup env cfg volume).mono setup
  formatS3 store := (formatS3Volume_besideSetup env store volume).mono setup
  repoint st storage bucket creds :=
    (reconfigureVolumeStorage_besideVolume env st storage bucket creds).mono repoint
  copyFiles := copyFiles
  copyObjects := copyObjects

theorem AcrossSteps.mono {env : Env} {cfg : Config} {volume : String}
    {R R' : World → World → Prop} (h : AcrossSteps env cfg volume R)
    (hR : ∀ w w', R w w' → R' w w') : AcrossSteps env cfg volume R' where
  service w w' hs := hR w w' (h.service w w' hs)
  install := h.install.mono hR
  formatLocal := h.formatLocal.mono hR
  formatS3 store := (h.formatS3 store).mono hR
  repoint st storage bucket creds := (h.repoint st storage bucket creds).mono hR
  copyFiles src dst sel w := hR _ _ (h.copyFiles src dst sel w)
  copyObjects src dst sel w := hR _ _ (h.copyObjects src dst sel w)

section AcrossSteps

variable {R : World → World → Prop} {env : Env} {cfg : Config} {volume : String}

theorem runSync_within (env : Env) {copy : (String → Bool) → World → World}
    (hcopy : ∀ sel w, R w (copy sel w)) : Within R (runSync env copy) := by
  intro w
  unfold runSync
  split
  · exact hcopy _ w
  · exact hcopy _ w
  · exact hcopy _ w

variable (hR : AcrossSteps env cfg volume R)
include hR

theorem mount_within (st : Stage) (creds : Option Creds) : Within R (mount env cfg st creds) :=
  (mount_besideService env cfg st creds).mono hR.service

theorem remount_within (st : Stage) (creds : Option Creds) :
    Within R (remount env cfg st creds) :=
  (remount_besideService env cfg st creds).mono hR.service

theorem quiesceArchiveApps_within (req : ConfigureRequest) :
    Within R (quiesceArchiveApps env req) :=
  ((quiesceArchiveApps_same env req).same_comp World.besideService).mono hR.service

variable [IsTrans World R]

theorem bringOver_within (naming : S3Naming) (req : ConfigureRequest) (source : Source) :
    Within R (bringOver env cfg naming req volume source) := by
  refine within_bind hR.install fun _ => ?_
  cases source with
  | localDisk =>
    refine within_bind hR.formatLocal fun _ => ?_
    refine within_bind (mount_within hR _ _) fun _ => ?_
    refine within_bind (quiesceArchiveApps_within hR req) fun _ => ?_
    refine within_bind (within_bind ?_ fun _ => ?_) fun _ => remount_within hR _ _
    · exact runSync_within env (hR.copyFiles _ _)
    · exact hR.repoint _ _ _ _
  | s3 src =>
    refine within_bind (mount_within hR _ _) fun _ => ?_
    refine within_bind (quiesceArchiveApps_within hR req) fun _ => ?_
    refine within_bind (within_bind ?_ fun _ => ?_) fun _ => remount_within hR _ _
    · exact runSync_within env (hR.copyObjects _ _)
    · exact hR.repoint _ _ _ _
  | disabled =>
    exact within_bind (hR.formatS3 _) fun _ => mount_within hR _ _

theorem restoreSource_within (source : Source) : Within R (restoreSource env cfg source) := by
  cases source with
  | localDisk => exact within_bind (hR.repoint _ _ _ _) fun _ => remount_within hR _ _
  | s3 src => exact within_bind (hR.repoint _ _ _ _) fun _ => remount_within hR _ _
  | disabled => exact (umount_besideService env .cleanup).mono hR.service

end AcrossSteps

/-- The row and the log. -/
def World.record (w : World) := (w.db, w.log)

/-- The steps of a migration write neither the row nor the log. -/
theorem acrossSteps_record (env : Env) (cfg : Config) (volume : String) :
    AcrossSteps env cfg volume (Same World.record) := by
  refine .of_frames ?_ ?_ ?_ (fun _ _ _ _ => rfl) (fun _ _ _ _ => rfl)
  · intro w w' h
    obtain ⟨hdb, -, -, -, hlog⟩ := besideService_fields h
    exact Prod.ext hdb hlog
  · intro w w' h
    obtain ⟨hdb, -, -, -, hlog⟩ := besideSetup_fields h
    exact Prod.ext hdb hlog
  · intro w w' h
    obtain ⟨hdb, -, -, -, hlog⟩ := besideVolume_fields h
    exact Prod.ext hdb hlog

/-! ## No object disappears -/

/-- Every object there was is still there. -/
def NothingDeleted (w w' : World) : Prop := ∀ l, (w.object l).isSome → (w'.object l).isSome

instance : Std.Refl NothingDeleted := ⟨fun _ _ h => h⟩

instance : IsTrans World NothingDeleted := ⟨fun _ _ _ h₁ h₂ l hl => h₂ l (h₁ l hl)⟩

theorem nothingDeleted_of_stores {w w' : World} (hf : w'.files = w.files)
    (hb : w'.buckets = w.buckets) : NothingDeleted w w' := by
  intro l hl
  rw [object_of_stores hf hb]
  exact hl

theorem nothingDeleted_of_besideDb {w w' : World} (h : Same World.besideDb w w') :
    NothingDeleted w w' := by
  obtain ⟨-, hf, hb, -, -⟩ := besideDb_fields h
  exact nothingDeleted_of_stores hf hb

/-- Writing objects into buckets deletes none. -/
theorem nothingDeleted_of_buckets {w w' : World} (hf : w'.files = w.files)
    (hb : ∀ b k, w'.buckets b k = w.buckets b k ∨
      ∃ x : Option Blob, w'.buckets b k = x.or (w.buckets b k)) : NothingDeleted w w' := by
  intro l hl
  cases l with
  | file path => simpa only [World.object, hf] using hl
  | key bucket key =>
    have hsome : (w.buckets bucket key).isSome = true := hl
    rcases hb bucket key with hsame | ⟨x, hor⟩
    · simpa only [World.object, hsame] using hl
    · simp only [World.object, hor, Option.isSome_or, hsome, Bool.or_true]

/-- The steps of a migration delete no object. -/
theorem acrossSteps_nothingDeleted (env : Env) (cfg : Config) (volume : String) :
    AcrossSteps env cfg volume NothingDeleted := by
  refine .of_frames ?_ ?_ ?_ ?_ ?_
  · intro w w' h
    obtain ⟨-, -, hf, hb, -⟩ := besideService_fields h
    exact nothingDeleted_of_stores hf hb
  · intro w w' h
    obtain ⟨-, hf, hb, -, -⟩ := besideSetup_fields h
    exact nothingDeleted_of_stores hf hb
  · intro w w' h
    obtain ⟨-, hf, hb, -, -⟩ := besideVolume_fields h
    exact nothingDeleted_of_stores hf hb
  · intro src dst sel w
    refine nothingDeleted_of_buckets rfl fun b k => ?_
    simp only [World.copyFiles]
    split
    · split
      · exact .inr ⟨_, rfl⟩
      · exact .inl rfl
    · exact .inl rfl
  · intro src dst sel w
    refine nothingDeleted_of_buckets rfl fun b k => ?_
    simp only [World.copyObjects]
    split
    · split
      · exact .inr ⟨_, rfl⟩
      · exact .inl rfl
    · exact .inl rfl

/-! ## The row -/

/-- The columns that say where the archive is. -/
def BackendRow.settings (r : BackendRow) :=
  (r.backend, r.s3Bucket, r.s3Region, r.s3Endpoint, r.s3Prefix, r.s3AccessKeyId,
    r.s3SecretAccessKey, r.juicefsVolumeName)

/-- The `UPDATE` went through, and the `COMMIT` failed with the transaction still open. -/
def OpenTransaction (env : Env) (cfg : Config) (naming : S3Naming) (req : ConfigureRequest)
    (volume : String) (source : Source) (w : World) : Prop :=
  (bringOver env cfg naming req volume source w).1 = .ok () ∧ env.reply .updateRow = .ok ∧
    ∃ e, env.reply .commitRow = .raises e true

section Row

variable {env : Env} {cfg : Config} {naming : S3Naming} {req : ConfigureRequest} {volume : String}
  {source : Source} {w w' : World} {e : PyError}

theorem execute_raised {site : Site} {f : BackendRow → BackendRow}
    (h : execute env site f w = (.raised e, w')) : w' = w ∧ env.reply site ≠ .ok := by
  unfold execute at h
  split at h
  · cases (Prod.mk.inj h).1
  · rename_i hreply
    exact ⟨(Prod.mk.inj h).2.symm, by simp [hreply]⟩
  · cases (Prod.mk.inj h).1

theorem execute_ok {site : Site} {f : BackendRow → BackendRow} {u : Unit}
    (h : execute env site f w = (.ok u, w')) :
    env.reply site = .ok ∧ w' = { w with db := w.db.update f } := by
  unfold execute at h
  split at h
  · rename_i hreply
    exact ⟨hreply, (Prod.mk.inj h).2.symm⟩
  · cases (Prod.mk.inj h).1
  · cases (Prod.mk.inj h).1

theorem commit_ok {site : Site} {u : Unit} (h : commit env site w = (.ok u, w')) :
    env.reply site = .ok ∧ w' = { w with db := w.db.commit } := by
  unfold commit at h
  split at h
  · rename_i hreply
    exact ⟨hreply, (Prod.mk.inj h).2.symm⟩
  · cases (Prod.mk.inj h).1
  · cases (Prod.mk.inj h).1

theorem commit_raised {site : Site} (h : commit env site w = (.raised e, w')) :
    ∃ stillOpen, env.reply site = .raises e stillOpen ∧
      w' = if stillOpen = true then w else { w with db := w.db.rollback } := by
  unfold commit at h
  split at h
  · cases (Prod.mk.inj h).1
  · rename_i e' stillOpen hreply
    obtain ⟨he, hw⟩ := Prod.mk.inj h
    cases he
    exact ⟨stillOpen, hreply, hw.symm⟩
  · cases (Prod.mk.inj h).1

/-- A `COMMIT` that raises commits nothing. -/
theorem commit_raised_committed {site : Site} (h : commit env site w = (.raised e, w')) :
    w'.db.committed = w.db.committed ∧ w'.log = w.log := by
  obtain ⟨stillOpen, -, rfl⟩ := commit_raised h
  cases stillOpen
  · exact ⟨rfl, rfl⟩
  · exact ⟨rfl, rfl⟩

/-- A failed `try` block has committed nothing and logged nothing. -/
theorem trySwitch_raised (h : trySwitch env cfg naming req volume source w = (.raised e, w')) :
    w'.db.committed = w.db.committed ∧ w'.log = w.log := by
  have hbring := bringOver_within (acrossSteps_record env cfg volume) naming req source w
  rcases bind_raised_iff.mp h with hraise | ⟨_, w₁, hok, hrecord⟩
  · rw [hraise] at hbring
    exact ⟨congrArg (fun r => r.1.committed) hbring, congrArg Prod.snd hbring⟩
  · rw [hok] at hbring
    have hdb : w₁.db = w.db := congrArg Prod.fst hbring
    have hlog : w₁.log = w.log := congrArg Prod.snd hbring
    rcases bind_raised_iff.mp hrecord with hexec | ⟨_, w₂, hexec, hcommit⟩
    · obtain ⟨rfl, -⟩ := execute_raised hexec
      exact ⟨by rw [hdb], hlog⟩
    · obtain ⟨-, rfl⟩ := execute_ok hexec
      obtain ⟨hc, hl⟩ := commit_raised_committed hcommit
      exact ⟨hc.trans (by rw [Db.update, hdb]), hl.trans hlog⟩

/-- What a failed `try` block leaves in the open transaction. -/
theorem trySwitch_view {row : BackendRow} (hdb : w.db = ⟨some row, none⟩)
    (h : trySwitch env cfg naming req volume source w = (.raised e, w')) :
    (OpenTransaction env cfg naming req volume source w ∧
        w'.db.view = some (switchedRow env req volume row)) ∨
      (¬OpenTransaction env cfg naming req volume source w ∧ w'.db.view = some row) := by
  have hbring := bringOver_within (acrossSteps_record env cfg volume) naming req source w
  rcases bind_raised_iff.mp h with hraise | ⟨_, w₁, hok, hrecord⟩
  · rw [hraise] at hbring
    refine .inr ⟨fun hopen => ?_, ?_⟩
    · rw [OpenTransaction, hraise] at hopen
      cases hopen.1
    · rw [show w'.db = w.db from congrArg Prod.fst hbring, hdb]
      rfl
  · rw [hok] at hbring
    have hdb₁ : w₁.db = ⟨some row, none⟩ := (congrArg Prod.fst hbring).trans hdb
    rcases bind_raised_iff.mp hrecord with hexec | ⟨_, w₂, hexec, hcommit⟩
    · obtain ⟨rfl, hreply⟩ := execute_raised hexec
      refine .inr ⟨fun hopen => hreply hopen.2.1, ?_⟩
      rw [hdb₁]
      rfl
    · obtain ⟨hupdate, rfl⟩ := execute_ok hexec
      obtain ⟨stillOpen, hreply, rfl⟩ := commit_raised hcommit
      cases stillOpen with
      | true =>
        refine .inl ⟨⟨by rw [hok], hupdate, _, hreply⟩, ?_⟩
        simp [Db.update, Db.view, hdb₁]
      | false =>
        refine .inr ⟨fun hopen => ?_, ?_⟩
        · obtain ⟨e', he'⟩ := hopen.2.2
          rw [hreply] at he'
          cases he'
        · simp [Db.update, Db.rollback, Db.view, hdb₁]

end Row

/-! ## The mount -/

/-- A mount that is still starting and survives `umount`: it is not up when `umount` looks, and the
failing `disable --now` is taken for "already stopped". -/
def leftStarting (env : Env) (st : Stage) (w : World) : Option Format :=
  match w.service, env.reply (.disableNow st) with
  | .starting g, .raises e false =>
    if env.cameUp (.umountCheck st) = false ∧ e.isRuntimeError = true then some g else none
  | _, _ => none

theorem leftStarting_of_service (env : Env) (st : Stage) {w w' : World}
    (h : w'.service = w.service) : leftStarting env st w' = leftStarting env st w := by
  rw [leftStarting, h, leftStarting]

section Mount

variable {env : Env} {cfg : Config} {st : Stage} {w w' : World} {u : Unit}

/-- Stopping the service with a swallowed `RuntimeError`. -/
theorem disableNow_ok
    (h : tryExcept (external env (.disableNow st) World.stopService) PyError.isRuntimeError
      (fun _ => pure ()) w = (.ok u, w')) :
    (w' = w.stopService ∧ ∀ e, env.reply (.disableNow st) ≠ .raises e false) ∨
      (w' = w ∧ ∃ e, env.reply (.disableNow st) = .raises e false ∧ e.isRuntimeError = true) := by
  rcases tryExcept_ok_iff.mp h with hok | ⟨e, w₁, hraise, hruntime, hpure⟩
  · obtain ⟨hreply, hw⟩ := call_eq_ok_iff.mp hok
    exact .inl ⟨hw, by simp [hreply]⟩
  · obtain ⟨-, rfl⟩ := Prod.mk.inj hpure
    cases hreply : env.reply (.disableNow st) with
    | ok => simp [external, hreply] at hraise
    | dies applied => simp [external, hreply, call] at hraise
    | raises e' applied =>
      simp only [external, hreply, call_raises, Prod.mk.injEq, Outcome.raised.injEq] at hraise
      obtain ⟨rfl, rfl⟩ := hraise
      cases applied with
      | true => exact .inl ⟨rfl, by simp⟩
      | false => exact .inr ⟨rfl, e', rfl, hruntime⟩

/-- Stopping a live mount. -/
theorem stopMounted_ok
    (h : (do
        tryExcept (external env (.stop st) World.stopService) PyError.isRuntimeError
          fun exc => raise (stopError exc)
        external env (.disable st) id : ArchiveProc Unit) w = (.ok u, w')) :
    w' = w.stopService := by
  obtain ⟨_, w₁, hstop, hdisable⟩ := bind_ok_iff.mp h
  obtain ⟨-, rfl⟩ := call_eq_ok_iff.mp hdisable
  rcases tryExcept_ok_iff.mp hstop with hok | ⟨e, w₂, -, -, hraise⟩
  · exact (call_eq_ok_iff.mp hok).2
  · cases (Prod.mk.inj hraise).1

/-- After `umount` returns the service is stopped, or the start it did not see is still under
way. -/
theorem umount_service (h : umount env st w = (.ok u, w')) :
    w'.volume = w.volume ∧
      w'.service = ((leftStarting env st w).map Service.starting).getD .stopped := by
  obtain ⟨up, w₁, hcheck, hrest⟩ := bind_ok_iff.mp h
  cases hservice : w.service with
  | stopped =>
    simp only [isMounted, hservice, Prod.mk.injEq, Outcome.ok.injEq] at hcheck
    obtain ⟨rfl, rfl⟩ := hcheck
    rw [leftStarting, hservice]
    rcases disableNow_ok hrest with ⟨rfl, -⟩ | ⟨rfl, -⟩
    · exact ⟨rfl, rfl⟩
    · exact ⟨rfl, hservice⟩
  | up f =>
    simp only [isMounted, hservice, Prod.mk.injEq, Outcome.ok.injEq] at hcheck
    obtain ⟨rfl, rfl⟩ := hcheck
    rw [stopMounted_ok hrest, leftStarting, hservice]
    exact ⟨rfl, rfl⟩
  | starting g =>
    cases hup : env.cameUp (.umountCheck st) with
    | true =>
      simp only [isMounted, hservice, hup, if_true, Prod.mk.injEq, Outcome.ok.injEq] at hcheck
      obtain ⟨rfl, rfl⟩ := hcheck
      rw [stopMounted_ok hrest]
      refine ⟨rfl, ?_⟩
      unfold leftStarting
      rw [hservice]
      split <;> simp [hup, World.stopService]
    | false =>
      simp only [isMounted, hservice, hup, Bool.false_eq_true, if_false, Prod.mk.injEq,
        Outcome.ok.injEq] at hcheck
      obtain ⟨rfl, rfl⟩ := hcheck
      rcases disableNow_ok hrest with ⟨rfl, hstopped⟩ | ⟨rfl, e, hreply, hruntime⟩
      · refine ⟨rfl, ?_⟩
        unfold leftStarting
        rw [hservice]
        split
        · rename_i hreply
          exact absurd hreply (hstopped _)
        · rfl
      · simp [leftStarting, hreply, hup, hruntime, hservice]

theorem startService_of_stopped {f : Format} (hservice : w.service = .stopped)
    (hvol : w.volume = some f) : w.startService = { w with service := .starting f } := by
  simp only [World.startService, hservice, hvol]

/-- Enabling a service that is starting already changes nothing. -/
theorem startService_of_starting {g : Format} (hservice : w.service = .starting g) :
    w.startService = w := by
  simp only [World.startService, hservice]

/-- The wait for the mount returns when a mount that was starting has come up. -/
theorem waitReady_ok (h : waitReady env cfg st w = (.ok u, w')) :
    ∃ g, (w.service = .starting g ∨ w.service = .up g) ∧ w'.service = .up g := by
  unfold waitReady at h
  split at h
  · cases (Prod.mk.inj h).1
  · rename_i g _ hservice
    obtain ⟨-, rfl⟩ := Prod.mk.inj h
    exact ⟨g, .inl hservice, rfl⟩
  · rename_i g _ hservice
    obtain ⟨-, rfl⟩ := Prod.mk.inj h
    exact ⟨g, .inr hservice, hservice⟩
  · cases (Prod.mk.inj h).1

/-- `mount` returns with a live mount: the one that was starting or up, or a new one on the format
of that moment. -/
theorem mount_service {creds : Option Creds} {f : Format} (hvol : w.volume = some f)
    (h : mount env cfg st creds w = (.ok u, w')) :
    w'.service =
      match w.service with
      | .stopped => .up f
      | .starting g => .up g
      | .up g => .up g := by
  obtain ⟨_, w₁, hdir, up, w₂, hcheck, hrest⟩ := by simpa only [mount, bind_ok_iff] using h
  obtain ⟨-, rfl⟩ := call_eq_ok_iff.mp hdir
  have hstart (hup : up = false) :
      ∃ w₃, w₃.service = (World.startService w₂).service ∧
        waitReady env cfg st w₃ = (.ok u, w') := by
    subst hup
    simp only [Bool.false_eq_true, if_false, bind_ok_iff] at hrest
    obtain ⟨_, w₃, henv, _, w₄, hreload, _, w₅, henable, hwait⟩ := hrest
    obtain ⟨-, rfl⟩ := call_eq_ok_iff.mp henv
    obtain ⟨-, rfl⟩ := call_eq_ok_iff.mp hreload
    obtain ⟨-, rfl⟩ := call_eq_ok_iff.mp henable
    refine ⟨_, ?_, hwait⟩
    simp only [World.startService, id]
    split <;> simp_all
  cases hservice : w₁.service with
  | stopped =>
    simp only [isMounted, hservice, Prod.mk.injEq, Outcome.ok.injEq] at hcheck
    obtain ⟨rfl, rfl⟩ := hcheck
    obtain ⟨w₃, hw₃, hwait⟩ := hstart rfl
    obtain ⟨g, hg, hup⟩ := waitReady_ok hwait
    rw [hw₃, startService_of_stopped hservice hvol] at hg
    rcases hg with hg | hg <;> cases hg
    exact hup
  | up g =>
    simp only [isMounted, hservice, Prod.mk.injEq, Outcome.ok.injEq] at hcheck
    obtain ⟨rfl, rfl⟩ := hcheck
    obtain ⟨-, rfl⟩ := Prod.mk.inj hrest
    exact hservice
  | starting g =>
    cases hup : env.cameUp (.mountCheck st) with
    | true =>
      simp only [isMounted, hservice, hup, if_true, Prod.mk.injEq, Outcome.ok.injEq] at hcheck
      obtain ⟨rfl, rfl⟩ := hcheck
      obtain ⟨-, rfl⟩ := Prod.mk.inj hrest
      rfl
    | false =>
      simp only [isMounted, hservice, hup, Bool.false_eq_true, if_false, Prod.mk.injEq,
        Outcome.ok.injEq] at hcheck
      obtain ⟨rfl, rfl⟩ := hcheck
      obtain ⟨w₃, hw₃, hwait⟩ := hstart rfl
      obtain ⟨g', hg, hup'⟩ := waitReady_ok hwait
      rw [hw₃, startService_of_starting hservice, hservice] at hg
      rcases hg with hg | hg <;> cases hg
      exact hup'

/-- After `_remount` returns, the mount that survived `umount` is live, or else one on the format of
that moment. -/
theorem remount_service {creds : Option Creds} {f : Format} (hvol : w.volume = some f)
    (h : remount env cfg st creds w = (.ok u, w')) :
    w'.volume = some f ∧ w'.service = .up ((leftStarting env st w).getD f) := by
  obtain ⟨_, w₁, hdown, hmount⟩ := bind_ok_iff.mp h
  obtain ⟨hvol₁, hservice₁⟩ := umount_service hdown
  obtain ⟨-, hvol₂, -⟩ := besideService_fields ((mount_besideService env cfg st creds).of_eq hmount)
  refine ⟨hvol₂.trans (hvol₁.trans hvol), ?_⟩
  rw [mount_service (hvol₁.trans hvol) hmount, hservice₁]
  cases leftStarting env st w <;> rfl

end Mount

/-! ## The restore and its report -/

/-- A format as the restore re-points it. -/
def Source.repoint (cfg : Config) (source : Source) (f : Format) : Format :=
  match source with
  | .localDisk => f.repoint .file (fileBucket cfg.localArchiveObjectStoreDir) none
  | .s3 src => f.repoint .s3 src.bucketUrl (some src.creds)
  | .disabled => f

/-- The format names the source store, with the credentials for it. -/
def Format.NamesStore (cfg : Config) (source : Source) (f : Format) : Prop :=
  match source with
  | .localDisk => f.storage = .file ∧ f.bucket = fileBucket cfg.localArchiveObjectStoreDir
  | .s3 src => f.storage = .s3 ∧ f.bucket = src.bucketUrl ∧
      f.accessKey = some src.creds.1 ∧ f.secretKey = some src.creds.2
  | .disabled => False

theorem repoint_namesStore (cfg : Config) {source : Source} (hdis : source ≠ .disabled)
    (f : Format) : (source.repoint cfg f).NamesStore cfg source := by
  cases source with
  | localDisk => exact ⟨rfl, rfl⟩
  | s3 src => exact ⟨rfl, rfl, rfl, rfl⟩
  | disabled => exact absurd rfl hdis

/-- A restore that returns has re-pointed the volume at the source.  The live mount works with that
format, unless an earlier one survived. -/
theorem restoreSource_ok {env : Env} {cfg : Config} {source : Source} (hdis : source ≠ .disabled)
    {w w' : World} {u : Unit} (h : restoreSource env cfg source w = (.ok u, w')) :
    ∃ f, w.volume = some f ∧ w'.volume = some (source.repoint cfg f) ∧
      w'.service = .up ((leftStarting env .restore w).getD (source.repoint cfg f)) := by
  cases source with
  | disabled => exact absurd rfl hdis
  | localDisk =>
    obtain ⟨_, w₁, hrepoint, hremount⟩ := bind_ok_iff.mp h
    obtain ⟨f, hf, rfl⟩ := reconfigureVolumeStorage_ok hrepoint
    have hmounted := remount_service rfl hremount
    rw [leftStarting_of_service env .restore rfl] at hmounted
    exact ⟨f, hf, hmounted⟩
  | s3 src =>
    obtain ⟨_, w₁, hrepoint, hremount⟩ := bind_ok_iff.mp h
    obtain ⟨f, hf, rfl⟩ := reconfigureVolumeStorage_ok hrepoint
    have hmounted := remount_service rfl hremount
    rw [leftStarting_of_service env .restore rfl] at hmounted
    exact ⟨f, hf, hmounted⟩

/-- The report of a failed restore commits the message together with whatever the open transaction
holds, or says in the log that it could not. -/
theorem reportRestoreFailure_ok {env : Env} {source : Source} {message : String}
    (hm : restoreFailedMessage source = some message) {w w' : World} {u : Unit}
    (h : reportRestoreFailure env source w = (.ok u, w')) :
    ((env.reply (.setMessage 0) = .ok ∧ env.reply (.commitMessage 0) = .ok) ∧
        w'.db.committed = w.db.view.map (fun r => { r with stateMessage := some message }) ∧
        w'.log = w.log ++ [restoreFailedLog source]) ∨
      (¬(env.reply (.setMessage 0) = .ok ∧ env.reply (.commitMessage 0) = .ok) ∧
        w'.db.committed = w.db.committed ∧
        w'.log = w.log ++ [restoreFailedLog source, messageFailedLog source]) := by
  obtain ⟨_, w₁, hlog, hrest⟩ := bind_ok_iff.mp h
  obtain ⟨-, rfl⟩ := Prod.mk.inj hlog
  rw [hm] at hrest
  rcases tryExcept_ok_iff.mp hrest with hset | ⟨e, w₂, hset, -, hlog₂⟩
  · obtain ⟨_, w₂, hexec, hcommit⟩ := bind_ok_iff.mp hset
    obtain ⟨hr₁, rfl⟩ := execute_ok hexec
    obtain ⟨hr₂, rfl⟩ := commit_ok hcommit
    exact .inl ⟨⟨hr₁, hr₂⟩, rfl, rfl⟩
  · obtain ⟨-, rfl⟩ := Prod.mk.inj hlog₂
    rcases bind_raised_iff.mp hset with hexec | ⟨_, w₃, hexec, hcommit⟩
    · obtain ⟨rfl, hr⟩ := execute_raised hexec
      exact .inr ⟨fun hok => hr hok.1, rfl, by simp⟩
    · obtain ⟨-, rfl⟩ := execute_ok hexec
      obtain ⟨hc, hl⟩ := commit_raised_committed hcommit
      obtain ⟨stillOpen, hr, -⟩ := commit_raised hcommit
      refine .inr ⟨fun hok => ?_, hc, ?_⟩
      · rw [hok.2] at hr
        cases hr
      · show w₂.log ++ [messageFailedLog source] = _
        rw [hl]
        simp

theorem reportRestoreFailure_stores (env : Env) (source : Source) :
    Within (Same World.stores) (reportRestoreFailure env source) := by
  refine within_bind (within_modify fun _ => rfl) fun _ => ?_
  cases restoreFailedMessage source with
  | none => exact within_pure _
  | some message =>
    refine within_tryExcept ?_ fun _ => within_modify fun _ => rfl
    refine (setStateMessage_besideDb env 0 _).mono fun w w' h => ?_
    obtain ⟨-, hf, hb, -, -⟩ := besideDb_fields h
    exact Prod.ext hf hb

/-! ## What a failed call leaves -/

/-- The volume names the source store, and a mount is live on it. -/
def Restored (cfg : Config) (source : Source) (w : World) : Prop :=
  ∃ f, w.volume = some f ∧ f.NamesStore cfg source ∧ w.service = .up f

/-- The call logged that the restore failed, and the committed row tells the operator, unless the
log says that writing it failed too. -/
def FailureRecorded (source : Source) (w w' : World) : Prop :=
  ∃ l, w'.log = w.log ++ l ∧ restoreFailedLog source ∈ l ∧
    ((∃ row, w'.db.committed = some row ∧ row.stateMessage = restoreFailedMessage source) ∨
      messageFailedLog source ∈ l)

/-- What a call that raised leaves behind. -/
structure FailedOpen (cfg : Config) (w w' : World) : Prop where
  settings : w'.db.committed.map BackendRow.settings = w.db.committed.map BackendRow.settings
  nothingDeleted : NothingDeleted w w'
  source :
    match sourceOf (readState w.db.view) with
    | .error _ => w' = w
    | .ok .disabled => True
    | .ok source => Restored cfg source w' ∨ FailureRecorded source w w'

/-- The `COMMIT` of the switch failed with its transaction open, the restore failed after it, and
writing the message committed the switched row. -/
def CommitLeftOpen (env : Env) (cfg : Config) (naming : S3Naming) (req : ConfigureRequest)
    (source : Source) (row : BackendRow) (w : World) : Prop :=
  let volume := pickedName env req w
  OpenTransaction env cfg naming req volume source w ∧
    (∃ e, (restoreSource env cfg source
      (trySwitch env cfg naming req volume source w).2).1 = .raised e) ∧
    (env.reply (.setMessage 0) = .ok ∧ env.reply (.commitMessage 0) = .ok) ∧
    (switchedRow env req volume row).settings ≠ row.settings

/-- A mount that the failed switch had started, on another format than the source's, came up after
the restore had taken it for stopped. -/
def LateMount (env : Env) (cfg : Config) (naming : S3Naming) (req : ConfigureRequest)
    (source : Source) (w : World) : Prop :=
  let w₂ := (trySwitch env cfg naming req (pickedName env req w) source w).2
  ∃ f g, w₂.volume = some f ∧ leftStarting env .restore w₂ = some g ∧
    g ≠ source.repoint cfg f ∧ (restoreSource env cfg source w₂).1 = .ok ()

/-- The `except` block lets nothing but its own exception out. -/
theorem neverRaises_failOpen (env : Env) (cfg : Config) (source : Source) :
    NeverRaises (failOpen env cfg source) := by
  refine neverRaises_tryExcept (fun _ => rfl) fun _ => ?_
  refine neverRaises_bind (neverRaises_logMessage _) fun _ => ?_
  cases restoreFailedMessage source with
  | none => exact neverRaises_pure ()
  | some message =>
    exact neverRaises_tryExcept (fun _ => rfl) fun _ => neverRaises_logMessage _

/-- The two ways a call ends with an exception: it was refused, or the `try` block raised and the
`except` block ran to its end. -/
theorem configureBackend_raised {env : Env} {cfg : Config} {naming : S3Naming}
    {req : ConfigureRequest} {w w' : World} {e : PyError}
    (h : configureBackend env cfg naming req w = (.raised e, w')) :
    (∃ e', sourceOf (readState w.db.view) = .error e' ∧ w' = w) ∨
      ∃ source e' w₂, sourceOf (readState w.db.view) = .ok source ∧
        trySwitch env cfg naming req (pickedName env req w) source w = (.raised e', w₂) ∧
        failOpen env cfg source w₂ = (.ok (), w') := by
  cases hsource : sourceOf (readState w.db.view) with
  | error e' =>
    rw [configureBackend_refused hsource] at h
    exact .inl ⟨e', rfl, (Prod.mk.inj h).2.symm⟩
  | ok source =>
    rw [configureBackend_apply hsource] at h
    rcases bind_raised_iff.mp h with hswitch | ⟨_, w₁, -, hreclaim⟩
    · obtain ⟨e', w₂, htry, hexcept⟩ := tryExcept_raised_of_handles (fun _ => rfl) hswitch
      refine .inr ⟨source, e', w₂, rfl, htry, ?_⟩
      rcases bind_raised_iff.mp hexcept with hfail | ⟨_, w₃, hfail, hraise⟩
      · exact absurd hfail (neverRaises_failOpen env cfg source _ _ _)
      · rw [hfail, (Prod.mk.inj hraise).2]
    · exact absurd hreclaim (neverRaises_reclaimSource env cfg naming _ req _ source _ _ _)

/-- Nothing a failing call does deletes an object. -/
theorem failOpen_nothingDeleted (env : Env) (cfg : Config) (naming : S3Naming)
    (req : ConfigureRequest) (volume : String) (source : Source) :
    Within NothingDeleted (trySwitch env cfg naming req volume source) ∧
      Within NothingDeleted (failOpen env cfg source) := by
  constructor
  · refine within_bind (bringOver_within (acrossSteps_nothingDeleted env cfg volume) naming req
      source) fun _ => ?_
    exact (recordSwitch_besideDb env req volume).mono fun _ _ => nothingDeleted_of_besideDb
  · refine within_tryExcept (restoreSource_within (acrossSteps_nothingDeleted env cfg volume) source)
      fun _ => ?_
    refine (reportRestoreFailure_stores env source).mono fun w w' h => ?_
    exact nothingDeleted_of_stores (congrArg Prod.fst h) (congrArg Prod.snd h)

section FailedOpen

variable {env : Env} {cfg : Config} {naming : S3Naming} {req : ConfigureRequest} {source : Source}
  {row : BackendRow} {w w₂ w' : World} {e : PyError}

/-- The message a failed restore of a migration leaves for the operator. -/
theorem exists_restoreFailedMessage (hdis : source ≠ .disabled) :
    ∃ message, restoreFailedMessage source = some message := by
  cases source with
  | localDisk => exact ⟨_, rfl⟩
  | s3 src => exact ⟨_, rfl⟩
  | disabled => exact absurd rfl hdis

theorem failedOpen_nothingDeleted {volume : String}
    (htry : trySwitch env cfg naming req volume source w = (.raised e, w₂))
    (hfail : failOpen env cfg source w₂ = (.ok (), w')) : NothingDeleted w w' := by
  obtain ⟨hswitch, hopen⟩ := failOpen_nothingDeleted env cfg naming req volume source
  exact trans_of NothingDeleted (hswitch.of_eq htry) (hopen.of_eq hfail)

/-- A formerly disabled zone has no source store; its row is kept. -/
theorem failedOpen_disabled {volume : String}
    (hsource : sourceOf (readState w.db.view) = .ok .disabled)
    (htry : trySwitch env cfg naming req volume .disabled w = (.raised e, w₂))
    (hfail : failOpen env cfg .disabled w₂ = (.ok (), w')) : FailedOpen cfg w w' := by
  have hcommitted : w'.db.committed = w₂.db.committed := by
    rcases tryExcept_ok_iff.mp hfail with hrestore | ⟨e₁, w₃, hrestore, -, hreport⟩
    · have hrecord := (restoreSource_within (acrossSteps_record env cfg volume) .disabled).of_eq
        hrestore
      exact congrArg (fun r => r.1.committed) hrecord
    · have hrecord := (restoreSource_within (acrossSteps_record env cfg volume) .disabled).of_eq
        hrestore
      obtain ⟨_, w₄, hlog, hpure⟩ := bind_ok_iff.mp hreport
      obtain ⟨-, rfl⟩ := Prod.mk.inj hlog
      obtain ⟨-, rfl⟩ := Prod.mk.inj hpure
      exact congrArg (fun r => r.1.committed) hrecord
  refine ⟨?_, failedOpen_nothingDeleted htry hfail, ?_⟩
  · rw [hcommitted, (trySwitch_raised htry).1]
  · rw [hsource]
    trivial

/-- When the restore returned, all is well unless an earlier mount outlived it. -/
theorem failedOpen_iff_of_restored (hdis : source ≠ .disabled)
    (hsource : sourceOf (readState w.db.view) = .ok source)
    (htry : trySwitch env cfg naming req (pickedName env req w) source w = (.raised e, w₂))
    (hrestore : restoreSource env cfg source w₂ = (.ok (), w'))
    (hdeleted : NothingDeleted w w') :
    FailedOpen cfg w w' ↔ ¬LateMount env cfg naming req source w := by
  obtain ⟨hcommitted, hlog⟩ := trySwitch_raised htry
  have hrecord := (restoreSource_within (acrossSteps_record env cfg "") source).of_eq hrestore
  have hdb' : w'.db = w₂.db := congrArg Prod.fst hrecord
  have hlog' : w'.log = w.log := (congrArg Prod.snd hrecord).trans hlog
  obtain ⟨f, hvol, hvol', hservice⟩ := restoreSource_ok hdis hrestore
  have hnames := repoint_namesStore cfg hdis f
  constructor
  · rintro ⟨-, -, hstore⟩ ⟨f', g, hf', hg, hne, -⟩
    rw [htry] at hf' hg
    cases Option.some.inj (hvol.symm.trans hf')
    rw [hsource] at hstore
    have hsource' : Restored cfg source w' ∨ FailureRecorded source w w' := by
      cases source with
      | disabled => exact absurd rfl hdis
      | localDisk => exact hstore
      | s3 src => exact hstore
    rcases hsource' with ⟨f'', hf'', -, hup⟩ | ⟨l, hl, hmem, -⟩
    · cases Option.some.inj (hvol'.symm.trans hf'')
      rw [hservice, hg] at hup
      cases hup
      exact hne rfl
    · have hnil : l = [] := by simpa [hlog'] using hl
      rw [hnil] at hmem
      cases hmem
  · intro hlate
    have hrestored : Restored cfg source w' := by
      refine ⟨source.repoint cfg f, hvol', hnames, ?_⟩
      cases hleft : leftStarting env .restore w₂ with
      | none => rw [hservice, hleft, Option.getD_none]
      | some g =>
        by_cases hg : g = source.repoint cfg f
        · rw [hservice, hleft, Option.getD_some, hg]
        · refine absurd ⟨f, g, ?_, ?_, hg, ?_⟩ hlate
          · rw [htry]
            exact hvol
          · rw [htry]
            exact hleft
          · rw [htry, hrestore]
    refine ⟨by rw [hdb', hcommitted], hdeleted, ?_⟩
    rw [hsource]
    cases source with
    | disabled => trivial
    | localDisk => exact .inl hrestored
    | s3 src => exact .inl hrestored

/-- When the restore failed that is on record, and the row is kept unless its message completed the
open transaction. -/
theorem failedOpen_iff_of_reported (hdis : source ≠ .disabled) (hdb : w.db = ⟨some row, none⟩)
    (hsource : sourceOf (readState w.db.view) = .ok source)
    (htry : trySwitch env cfg naming req (pickedName env req w) source w = (.raised e, w₂))
    {e₁ : PyError} {w₃ : World} (hrestore : restoreSource env cfg source w₂ = (.raised e₁, w₃))
    (hreport : reportRestoreFailure env source w₃ = (.ok (), w'))
    (hdeleted : NothingDeleted w w') :
    FailedOpen cfg w w' ↔ ¬CommitLeftOpen env cfg naming req source row w := by
  obtain ⟨hcommitted, hlog⟩ := trySwitch_raised htry
  have hrecord := (restoreSource_within (acrossSteps_record env cfg "") source).of_eq hrestore
  have hdb₃ : w₃.db = w₂.db := congrArg Prod.fst hrecord
  have hlog₃ : w₃.log = w.log := (congrArg Prod.snd hrecord).trans hlog
  obtain ⟨message, hm⟩ := exists_restoreFailedMessage hdis
  have hrow : w.db.committed = some row := by rw [hdb]
  have hfails : ∃ e', (restoreSource env cfg source
      (trySwitch env cfg naming req (pickedName env req w) source w).2).1 = .raised e' :=
    ⟨e₁, by rw [htry, hrestore]⟩
  have hview := trySwitch_view hdb htry
  have hwhole (hset : w'.db.committed.map BackendRow.settings = some row.settings)
      (hrecorded : FailureRecorded source w w') : FailedOpen cfg w w' := by
    refine ⟨by rw [hset, hrow]; rfl, hdeleted, ?_⟩
    rw [hsource]
    cases source with
    | disabled => trivial
    | localDisk => exact .inr hrecorded
    | s3 src => exact .inr hrecorded
  rcases reportRestoreFailure_ok hm hreport with ⟨hreplies, hc, hl⟩ | ⟨hreplies, hc, hl⟩
  · have hrecorded (r : BackendRow) (hr : w'.db.committed =
        some { r with stateMessage := some message }) : FailureRecorded source w w' :=
      ⟨_, by rw [hl, hlog₃], by simp, .inl ⟨_, hr, hm.symm⟩⟩
    rw [hdb₃] at hc
    rcases hview with ⟨hopen, hv⟩ | ⟨hclosed, hv⟩
    · rw [hv, Option.map_some] at hc
      constructor
      · rintro ⟨hsettings, -, -⟩ ⟨-, -, -, hne⟩
        rw [hc, hrow] at hsettings
        exact hne (Option.some.inj hsettings)
      · intro hleft
        refine hwhole ?_ (hrecorded _ hc)
        rw [hc]
        by_contra hne
        exact hleft ⟨hopen, hfails, hreplies, fun heq => hne (congrArg some heq)⟩
    · rw [hv, Option.map_some] at hc
      refine iff_of_true (hwhole ?_ (hrecorded _ hc)) fun hleft => hclosed hleft.1
      rw [hc]
      rfl
  · refine iff_of_true (hwhole ?_ ?_) fun hleft => hreplies hleft.2.2.1
    · rw [hc, hdb₃, hcommitted, hrow]
      rfl
    · exact ⟨_, by rw [hl, hlog₃], by simp, .inr (by simp)⟩

end FailedOpen

/-- A call that raises leaves the row, the objects and the source mount as it found them, or says
that it could not, exactly when neither the `COMMIT` of the switch stays open behind a failed
restore nor a mount of the new store outlives the restore. -/
theorem configureBackend_failedOpen_iff {env : Env} {cfg : Config} {naming : S3Naming}
    {req : ConfigureRequest} {row : BackendRow} {w w' : World} {e : PyError}
    (hdb : w.db = ⟨some row, none⟩)
    (hraises : configureBackend env cfg naming req w = (.raised e, w')) :
    FailedOpen cfg w w' ↔
      ∀ source, sourceOf (readState (some row)) = .ok source → source ≠ .disabled →
        ¬CommitLeftOpen env cfg naming req source row w ∧
          ¬LateMount env cfg naming req source w := by
  have hview : w.db.view = some row := by rw [hdb]; rfl
  rcases configureBackend_raised hraises with ⟨e', herror, rfl⟩ | ⟨source, e', w₂, hsource, htry, hfail⟩
  · rw [hview] at herror
    refine iff_of_true ⟨rfl, refl_of NothingDeleted _, ?_⟩ fun source hsource => ?_
    · rw [hview, herror]
    · rw [herror] at hsource
      cases hsource
  have hdeleted := failedOpen_nothingDeleted htry hfail
  by_cases hdis : source = .disabled
  · subst hdis
    refine iff_of_true (failedOpen_disabled hsource htry hfail) fun source hsource' hne => ?_
    rw [← hview, hsource] at hsource'
    exact absurd (Except.ok.inj hsource').symm hne
  have honly : (∀ source', sourceOf (readState (some row)) = .ok source' → source' ≠ .disabled →
      ¬CommitLeftOpen env cfg naming req source' row w ∧
        ¬LateMount env cfg naming req source' w) ↔
      ¬CommitLeftOpen env cfg naming req source row w ∧
        ¬LateMount env cfg naming req source w := by
    rw [← hview, hsource]
    constructor
    · exact fun h => h source rfl hdis
    · rintro h source' heq -
      cases heq
      exact h
  rw [honly]
  rcases tryExcept_ok_iff.mp hfail with hrestore | ⟨e₁, w₃, hrestore, -, hreport⟩
  · rw [failedOpen_iff_of_restored hdis hsource htry hrestore hdeleted]
    refine (and_iff_right fun hleft => ?_).symm
    obtain ⟨-, ⟨e₂, hraise⟩, -⟩ := hleft
    rw [htry, hrestore] at hraise
    cases hraise
  · rw [failedOpen_iff_of_reported hdis hdb hsource htry hrestore hreport hdeleted]
    refine (and_iff_left fun hlate => ?_).symm
    obtain ⟨-, -, -, -, -, hok⟩ := hlate
    rw [htry, hrestore] at hok
    cases hok

/-! ### A slow mount

The mount of the new store takes longer than `mount` waits for it, and `systemctl disable --now`
fails when the `except` block tries to take it down. -/

/-- The outside world of a slow mount. -/
def slowMount : Env :=
  { Env.calm with
    reply := fun
      | .ready .switchOver => .raises (runtimeError "not ready") false
      | .disableNow .restore => .raises (runtimeError "systemctl disable --now failed") false
      | _ => .ok }

/-- The call raises; the volume names the local store again, and the mount stays on the bucket. -/
theorem slowMount_not_failedOpen :
    let run := configureBackend slowMount legacyConfig .virtualHosted (requestNamed "openhost")
      legacyWorld
    (∃ e, run.1 = .raised e) ∧ ¬FailedOpen legacyConfig legacyWorld run.2 := by
  refine ⟨⟨_, rfl⟩, fun hfailed => ?_⟩
  rcases hfailed.source with ⟨f, hf, -, hup⟩ | ⟨l, hl, hmem, -⟩
  · cases Option.some.inj hf
    exact absurd hup (by decide)
  · have hnil : [] = l := hl
    rw [← hnil] at hmem
    cases hmem

/-- The outside world of a copy that fails. -/
def failingSync : Env :=
  { Env.calm with
    reply := fun
      | .sync => .raises (runtimeError "juicefs sync failed") false
      | _ => .ok }

/-- A failing copy leaves everything as it was. -/
theorem failingSync_failedOpen :
    FailedOpen legacyConfig legacyWorld
      (configureBackend failingSync legacyConfig .virtualHosted (requestNamed "openhost")
        legacyWorld).2 := by
  have hdb : legacyWorld.db = ⟨some (readState none), none⟩ := rfl
  refine (configureBackend_failedOpen_iff hdb (Prod.ext rfl rfl)).mpr fun source hsource _ => ?_
  cases hsource
  refine ⟨fun hopen => ?_, fun hlate => ?_⟩
  · exact absurd hopen.1.1 (by decide)
  · obtain ⟨f, g, -, hleft, -⟩ := hlate
    have hnone : leftStarting failingSync .restore (trySwitch failingSync legacyConfig
        .virtualHosted (requestNamed "openhost") "openhost" .localDisk legacyWorld).2 = none := by
      decide
    cases hnone.symm.trans hleft

end OpenHost.Archive
