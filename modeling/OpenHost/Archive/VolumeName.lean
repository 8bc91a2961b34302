import OpenHost.Archive.FailOpen
import OpenHost.Archive.Startup
import OpenHost.Library.Runs

/-!
# The recorded volume name

Later syncs and deletions go by the volume name in the row, so it has to be the one the volume was
formatted with.  The name is chosen, recorded and used by three pieces of code with failures between
them; a run is a sequence of boots and of configure requests, each of which may fail or die anywhere.

`Event.KeepsRecord` says which steps keep the record right, `nameRecorded_of_reach` that they do in
every run.
-/

namespace OpenHost.Archive

open OpenHost.Proc
open OpenHost.Text

/-! ## The invariant -/

/-- The row records the name of the formatted volume, and it is a name JuiceFS accepts. -/
def NameRecorded (w : World) : Prop :=
  ∀ f, w.volume = some f →
    w.db.committed.map BackendRow.juicefsVolumeName = some f.name.val ∧
      validVolumeName f.name.val = true

/-- The name the volume is formatted with. -/
def World.volumeName (w : World) : Option String :=
  (w.volume.map Format.name).map VolumeName.val

/-- The name the committed row records. -/
def World.rowName (w : World) : Option String :=
  w.db.committed.map BackendRow.juicefsVolumeName

theorem nameRecorded_iff (w : World) :
    NameRecorded w ↔ ∀ n, w.volumeName = some n → w.rowName = some n := by
  constructor
  · intro h n hn
    obtain ⟨name, hname, rfl⟩ := Option.map_eq_some_iff.mp hn
    obtain ⟨f, hf, rfl⟩ := Option.map_eq_some_iff.mp hname
    exact (h f hf).1
  · intro h f hf
    exact ⟨h f.name.val (by rw [World.volumeName, hf]; rfl), f.name.valid⟩

/-! ## A settled name -/

/-- The row has the name `n`, committed and in the open transaction. -/
def Settled (n : String) (w : World) : Prop :=
  w.rowName = some n ∧ w.db.view.map BackendRow.juicefsVolumeName = some n

/-- `Settled n` is kept. -/
def KeepsSettled (n : String) (w w' : World) : Prop := Settled n w → Settled n w'

instance (n : String) : Std.Refl (KeepsSettled n) := ⟨fun _ h => h⟩

instance (n : String) : IsTrans World (KeepsSettled n) := ⟨fun _ _ _ h₁ h₂ h => h₂ (h₁ h)⟩

theorem keepsSettled_of_db {n : String} {w w' : World} (h : w'.db = w.db) :
    KeepsSettled n w w' := by
  intro hs
  rwa [Settled, World.rowName, h]

section Sql

variable {n : String} (env : Env)

/-- An `UPDATE` that leaves the name `n` in place. -/
theorem execute_keepsSettled (site : Site) {f : BackendRow → BackendRow}
    (hf : ∀ r, r.juicefsVolumeName = n → (f r).juicefsVolumeName = n) :
    Within (KeepsSettled n) (execute env site f) := by
  intro w hs
  unfold execute
  split
  · refine ⟨hs.1, ?_⟩
    obtain ⟨r, hr, hn⟩ := Option.map_eq_some_iff.mp hs.2
    simp [Db.update, Db.view] at hr ⊢
    exact ⟨r, hr, hf r hn⟩
  · exact hs
  · exact hs

theorem commit_keepsSettled (site : Site) : Within (KeepsSettled n) (commit env site) := by
  intro w hs
  have hcommit : Settled n { w with db := w.db.commit } := ⟨hs.2, hs.2⟩
  have hrollback : Settled n { w with db := w.db.rollback } := ⟨hs.1, hs.1⟩
  unfold commit
  split
  · exact hcommit
  · dsimp only
    split
    · exact hs
    · exact hrollback
  · dsimp only
    split
    · exact hcommit
    · exact hs

theorem setStateMessage_keepsSettled (k : Nat) (message : Option String) :
    Within (KeepsSettled n) (setStateMessage env k message) :=
  within_bind (execute_keepsSettled env _ fun _ h => h) fun _ => commit_keepsSettled env _

end Sql

/-! ## Writes that become durable -/

/-- A `COMMIT` with this answer has committed. -/
def Durable (r : Reply PyError) : Prop := r = .ok ∨ r = .dies true

/-- An `UPDATE` and its `COMMIT`, by the answer to the `UPDATE`. -/
theorem executeCommit_apply (env : Env) (site site' : Site) (f : BackendRow → BackendRow)
    (w : World) :
    (do execute env site f; commit env site' : ArchiveProc Unit) w =
      match env.reply site with
      | .ok => commit env site' { w with db := w.db.update f }
      | .raises e _ => (.raised e, w)
      | .dies _ => (.killed, w) := by
  rw [bind_apply, execute]
  cases env.reply site <;> rfl

/-- What becomes of the committed row. -/
theorem executeCommit_committed (env : Env) (site site' : Site) (f : BackendRow → BackendRow)
    (w : World) :
    ((env.reply site = .ok ∧ Durable (env.reply site')) ∧
        ((do execute env site f; commit env site' : ArchiveProc Unit) w).2.db.committed =
          w.db.view.map f) ∨
      (¬(env.reply site = .ok ∧ Durable (env.reply site')) ∧
        ((do execute env site f; commit env site' : ArchiveProc Unit) w).2.db.committed =
          w.db.committed) := by
  rw [executeCommit_apply]
  unfold commit Durable
  cases hr : env.reply site with
  | ok =>
    cases hr' : env.reply site' with
    | ok => exact .inl ⟨⟨rfl, .inl rfl⟩, rfl⟩
    | raises e stillOpen => cases stillOpen <;> exact .inr ⟨by simp, rfl⟩
    | dies applied =>
      cases applied with
      | true => exact .inl ⟨⟨rfl, .inr rfl⟩, rfl⟩
      | false => exact .inr ⟨by simp, rfl⟩
  | raises e applied => exact .inr ⟨by simp, rfl⟩
  | dies applied => exact .inr ⟨by simp, rfl⟩

/-- Writing a message commits the name of the open transaction, when it commits. -/
theorem setStateMessage_rowName (env : Env) (k : Nat) (message : Option String) (w : World) :
    ((env.reply (.setMessage k) = .ok ∧ Durable (env.reply (.commitMessage k))) ∧
        (setStateMessage env k message w).2.rowName =
          w.db.view.map BackendRow.juicefsVolumeName) ∨
      (¬(env.reply (.setMessage k) = .ok ∧ Durable (env.reply (.commitMessage k))) ∧
        (setStateMessage env k message w).2.rowName = w.rowName) := by
  rcases executeCommit_committed env (.setMessage k) (.commitMessage k)
    (fun r => { r with stateMessage := message }) w with ⟨hr, hc⟩ | ⟨hr, hc⟩
  · refine .inl ⟨hr, ?_⟩
    rw [World.rowName, setStateMessage, hc, Option.map_map]
    rfl
  · exact .inr ⟨hr, by rw [World.rowName, setStateMessage, hc, World.rowName]⟩

/-! ## The name of the volume -/

/-- A formatted volume has the name `n`. -/
def NamedAs (n : String) (w : World) : Prop := ∀ name, w.volumeName = some name → name = n

/-- `NamedAs n` is kept. -/
def KeepsNamedAs (n : String) (w w' : World) : Prop := NamedAs n w → NamedAs n w'

instance (n : String) : Std.Refl (KeepsNamedAs n) := ⟨fun _ h => h⟩

instance (n : String) : IsTrans World (KeepsNamedAs n) := ⟨fun _ _ _ h₁ h₂ h => h₂ (h₁ h)⟩

theorem keepsNamedAs_of_volumeName {n : String} {w w' : World}
    (h : w'.volumeName = w.volumeName) : KeepsNamedAs n w w' := by
  intro hn name hname
  exact hn name (h.symm.trans hname)

theorem keepsNamedAs_of_volume {n : String} {w w' : World} (h : Same World.volume w w') :
    KeepsNamedAs n w w' :=
  keepsNamedAs_of_volumeName (congrArg (fun v => (v.map Format.name).map VolumeName.val) h)

theorem volumeName_of_besideService {w w' : World} (h : Same World.besideService w w') :
    w'.volumeName = w.volumeName := by
  rw [World.volumeName, (besideService_fields h).2.1, World.volumeName]

/-- `juicefs format` under the name `n`. -/
theorem juicefsFormat_keepsNamedAs (env : Env) (site : Site) (n : String)
    {target : VolumeName → Format} (ht : ∀ v, (target v).name = v) :
    Within (KeepsNamedAs n) (juicefsFormat env site n target) := by
  intro w
  unfold juicefsFormat
  split
  · rename_i f hf
    refine call_rel _ fun hn name hname => hn name ?_
    simp only [World.volumeName, hf, Option.map_some] at hname ⊢
    rw [← hname]
    split
    · rw [ht]
    · rfl
  · split
    · refine call_rel _ fun _ name hname => ?_
      simp only [World.volumeName, Option.map_some, ht, Option.some.injEq] at hname
      exact hname.symm
    · exact fun h => h

theorem ensureLocalVolumeFormatted_keepsNamedAs (env : Env) (cfg : Config) {n : String}
    (hn : n ≠ "") : Within (KeepsNamedAs n) (ensureLocalVolumeFormatted env cfg n) := by
  unfold ensureLocalVolumeFormatted
  rw [orElse_some_of_ne hn]
  refine within_bind (within_reads _) fun _ => within_ite (fun _ => within_pure _) fun _ => ?_
  refine within_bind
    ((ensureJuicefsInstalled_volume env).mono fun _ _ => keepsNamedAs_of_volume) fun _ => ?_
  refine within_bind (within_call _ fun _ h => h) fun _ => ?_
  refine within_bind (within_call _ fun _ h => h) fun _ => ?_
  exact juicefsFormat_keepsNamedAs env _ n fun _ => rfl

theorem formatS3Volume_keepsNamedAs (env : Env) (store : S3Store) (n : String) :
    Within (KeepsNamedAs n) (formatS3Volume env store n) :=
  within_bind (within_call _ fun _ h => h) fun _ =>
    juicefsFormat_keepsNamedAs env _ n fun _ => rfl

theorem reconfigureVolumeStorage_volumeName (env : Env) (st : Stage) (storage : Storage)
    (bucket : String) (creds : Option Creds) :
    Within (Same World.volumeName) (reconfigureVolumeStorage env st storage bucket creds) :=
  (reconfigureVolumeStorage_name env st storage bucket creds).same_comp (Option.map VolumeName.val)

/-- A call that picked `n` formats under no other name. -/
theorem acrossSteps_keepsNamedAs (env : Env) (cfg : Config) {n : String} (hn : n ≠ "") :
    AcrossSteps env cfg n (KeepsNamedAs n) where
  service _ _ h := keepsNamedAs_of_volumeName (volumeName_of_besideService h)
  install := (ensureJuicefsInstalled_volume env).mono fun _ _ => keepsNamedAs_of_volume
  formatLocal := ensureLocalVolumeFormatted_keepsNamedAs env cfg hn
  formatS3 store := formatS3Volume_keepsNamedAs env store n
  repoint st storage bucket creds :=
    (reconfigureVolumeStorage_volumeName env st storage bucket creds).mono
      fun _ _ => keepsNamedAs_of_volumeName
  copyFiles _ _ _ _ h := h
  copyObjects _ _ _ _ h := h

/-- No call renames a formatted volume. -/
theorem acrossSteps_keepsName (env : Env) (cfg : Config) (volume : String) :
    AcrossSteps env cfg volume KeepsName where
  service w w' h := .of_same (besideService_fields h).2.1
  install := (ensureJuicefsInstalled_volume env).mono fun _ _ => .of_same
  formatLocal := ensureLocalVolumeFormatted_keepsName env cfg volume
  formatS3 store := formatS3Volume_keepsName env store volume
  repoint st storage bucket creds := by
    refine (reconfigureVolumeStorage_name env st storage bucket creds).mono fun _ _ h n hn => ?_
    exact h.trans hn
  copyFiles _ _ _ _ _ h := h
  copyObjects _ _ _ _ _ h := h

theorem restoreSource_volumeName (env : Env) (cfg : Config) (source : Source) :
    Within (Same World.volumeName) (restoreSource env cfg source) := by
  have hremount (creds : Option Creds) :
      Within (Same World.volumeName) (remount env cfg .restore creds) :=
    (remount_besideService env cfg .restore creds).mono fun _ _ => volumeName_of_besideService
  cases source with
  | localDisk =>
    exact within_bind (reconfigureVolumeStorage_volumeName env _ _ _ _) fun _ => hremount _
  | s3 src =>
    exact within_bind (reconfigureVolumeStorage_volumeName env _ _ _ _) fun _ => hremount _
  | disabled =>
    exact (umount_besideService env .cleanup).mono fun _ _ => volumeName_of_besideService

theorem volumeName_of_besideDb {w w' : World} (h : Same World.besideDb w w') :
    w'.volumeName = w.volumeName := by
  rw [World.volumeName, (besideDb_fields h).1, World.volumeName]

theorem setStateMessage_volumeName (env : Env) (k : Nat) (message : Option String) :
    Within (Same World.volumeName) (setStateMessage env k message) :=
  (setStateMessage_besideDb env k message).mono fun _ _ => volumeName_of_besideDb

theorem failOpen_volumeName (env : Env) (cfg : Config) (source : Source) :
    Within (Same World.volumeName) (failOpen env cfg source) := by
  refine within_tryExcept (restoreSource_volumeName env cfg source) fun _ => ?_
  refine within_bind (within_modify fun _ => rfl) fun _ => ?_
  cases restoreFailedMessage source with
  | none => exact within_pure _
  | some message =>
    exact within_tryExcept (setStateMessage_volumeName env 0 _) fun _ => within_modify fun _ => rfl

/-- `configure_backend` names the volume only while it brings the archive over. -/
theorem configureBackend_volumeName {env : Env} {cfg : Config} {naming : S3Naming}
    {req : ConfigureRequest} {source : Source} {w : World}
    (hsource : sourceOf (readState w.db.view) = .ok source) :
    (configureBackend env cfg naming req w).2.volumeName =
      (bringOver env cfg naming req (pickedName env req w) source w).2.volumeName := by
  rw [configureBackend_apply hsource]
  have hreclaim := reclaimSource_identity env cfg naming (readState w.db.view) req
    (pickedName env req w) source
  calc
    _ = (switchBackend env cfg naming req (pickedName env req w) source w).2.volumeName :=
      bind_same (fun _ => hreclaim.same_comp fun i => (i.2.map Format.name).map VolumeName.val) w
    _ = (trySwitch env cfg naming req (pickedName env req w) source w).2.volumeName :=
      tryExcept_same (fun _ => within_bind (failOpen_volumeName env cfg source)
        fun _ => within_raise _) w
    _ = _ := bind_same (fun _ => (recordSwitch_besideDb env req _).mono
        fun _ _ => volumeName_of_besideDb) w

/-! ## The name in the row -/

/-- The switched row becomes durable: its own `COMMIT` commits, or fails with the transaction open
and the message about the failed restore commits both. -/
def SwitchCommitted (env : Env) (cfg : Config) (naming : S3Naming) (req : ConfigureRequest)
    (source : Source) (w : World) : Prop :=
  let volume := pickedName env req w
  (bringOver env cfg naming req volume source w).1 = .ok () ∧ env.reply .updateRow = .ok ∧
    (Durable (env.reply .commitRow) ∨
      ((∃ e, env.reply .commitRow = .raises e true) ∧ restoreFailedMessage source ≠ none ∧
        (∃ e, (restoreSource env cfg source
          (trySwitch env cfg naming req volume source w).2).1 = .raised e) ∧
        env.reply (.setMessage 0) = .ok ∧ Durable (env.reply (.commitMessage 0))))

section RowName

variable {env : Env} {cfg : Config} {naming : S3Naming} {req : ConfigureRequest} {source : Source}
  {w : World}

/-- The report of a failed restore commits the name of the open transaction, when its message
commits. -/
theorem reportRestoreFailure_rowName (env : Env) (source : Source) (w : World) :
    ((restoreFailedMessage source ≠ none ∧ env.reply (.setMessage 0) = .ok ∧
          Durable (env.reply (.commitMessage 0))) ∧
        (reportRestoreFailure env source w).2.rowName =
          w.db.view.map BackendRow.juicefsVolumeName) ∨
      (¬(restoreFailedMessage source ≠ none ∧ env.reply (.setMessage 0) = .ok ∧
          Durable (env.reply (.commitMessage 0))) ∧
        (reportRestoreFailure env source w).2.rowName = w.rowName) := by
  cases hm : restoreFailedMessage source with
  | none =>
    refine .inr ⟨by simp, ?_⟩
    rw [reportRestoreFailure, hm]
    rfl
  | some message =>
    have hrun : (reportRestoreFailure env source w).2.rowName =
        (setStateMessage env 0 (some message)
          { w with log := w.log ++ [restoreFailedLog source] }).2.rowName := by
      have hlog : Within (Same World.rowName) (logMessage (messageFailedLog source)) :=
        within_modify fun _ => rfl
      rw [reportRestoreFailure, hm]
      exact tryExcept_same (fun _ => hlog) _
    rw [hrun]
    rcases setStateMessage_rowName env 0 (some message)
      { w with log := w.log ++ [restoreFailedLog source] } with ⟨hr, hname⟩ | ⟨hr, hname⟩
    · exact .inl ⟨⟨by simp, hr⟩, hname⟩
    · exact .inr ⟨fun h => hr h.2, hname⟩

/-- The `except` block does the same when it runs. -/
theorem failOpen_rowName (env : Env) (cfg : Config) (source : Source) (w : World) :
    (((∃ e, (restoreSource env cfg source w).1 = .raised e) ∧ restoreFailedMessage source ≠ none ∧
          env.reply (.setMessage 0) = .ok ∧ Durable (env.reply (.commitMessage 0))) ∧
        (failOpen env cfg source w).2.rowName = w.db.view.map BackendRow.juicefsVolumeName) ∨
      (¬((∃ e, (restoreSource env cfg source w).1 = .raised e) ∧
          restoreFailedMessage source ≠ none ∧
          env.reply (.setMessage 0) = .ok ∧ Durable (env.reply (.commitMessage 0))) ∧
        (failOpen env cfg source w).2.rowName = w.rowName) := by
  have hrecord := restoreSource_within (acrossSteps_record env cfg defaultVolumeName) source w
  cases hrun : restoreSource env cfg source w with
  | mk o w₁ =>
    rw [hrun] at hrecord
    have hdb : w₁.db = w.db := congrArg Prod.fst hrecord
    have hname : w₁.rowName = w.rowName := by rw [World.rowName, hdb, World.rowName]
    unfold failOpen tryExcept
    rw [hrun]
    cases o with
    | ok u => exact .inr ⟨by simp, hname⟩
    | killed => exact .inr ⟨by simp, hname⟩
    | raised e =>
      rcases reportRestoreFailure_rowName env source w₁ with ⟨hr, hn⟩ | ⟨hr, hn⟩
      · refine .inl ⟨⟨⟨e, rfl⟩, hr⟩, ?_⟩
        rw [← hdb]
        exact hn
      · exact .inr ⟨fun h => hr h.2, hn.trans hname⟩

/-- `switchBackend` by the outcome of its `try` block. -/
theorem switchBackend_rowName (volume : String) :
    (switchBackend env cfg naming req volume source w).2.rowName =
      match trySwitch env cfg naming req volume source w with
      | (.raised _, w₂) => (failOpen env cfg source w₂).2.rowName
      | (_, w₂) => w₂.rowName := by
  unfold switchBackend tryExcept
  cases htry : trySwitch env cfg naming req volume source w with
  | mk o w₂ =>
    cases o with
    | ok u => rfl
    | killed => rfl
    | raised e => exact bind_same (fun _ => within_raise _) w₂

/-- Going back from a state without an open transaction keeps the name. -/
theorem failOpen_rowName_of_settled {n : String} (h : Settled n w) :
    (failOpen env cfg source w).2.rowName = some n := by
  rcases failOpen_rowName env cfg source w with ⟨-, hname⟩ | ⟨-, hname⟩
  · exact hname.trans h.2
  · exact hname.trans h.1

/-- The row ends up with the picked name when the switched row became durable, and with its old name
otherwise. -/
theorem configureBackend_rowName {row : BackendRow} (hdb : w.db = ⟨some row, none⟩)
    (hsource : sourceOf (readState w.db.view) = .ok source) :
    (SwitchCommitted env cfg naming req source w ∧
        (configureBackend env cfg naming req w).2.rowName = some (pickedName env req w)) ∨
      (¬SwitchCommitted env cfg naming req source w ∧
        (configureBackend env cfg naming req w).2.rowName = some row.juicefsVolumeName) := by
  have hreclaim := reclaimSource_identity env cfg naming (readState w.db.view) req
    (pickedName env req w) source
  have hwhole : (configureBackend env cfg naming req w).2.rowName =
      (switchBackend env cfg naming req (pickedName env req w) source w).2.rowName := by
    rw [configureBackend_apply hsource]
    exact bind_same
      (fun _ => hreclaim.same_comp fun i => i.1.committed.map BackendRow.juicefsVolumeName) w
  rw [hwhole, switchBackend_rowName]
  generalize hvolume : pickedName env req w = volume
  have hrecord := bringOver_within (acrossSteps_record env cfg volume) naming req source w
  simp only [SwitchCommitted, hvolume]
  cases hbring : bringOver env cfg naming req volume source w with
  | mk o w₁ =>
    rw [hbring] at hrecord
    have hdb₁ : w₁.db = ⟨some row, none⟩ := (congrArg Prod.fst hrecord).trans hdb
    have hsettled : Settled row.juicefsVolumeName w₁ := by
      simp [Settled, World.rowName, hdb₁, Db.view]
    cases o with
    | killed =>
      rw [show trySwitch env cfg naming req volume source w = _ from bind_of_killed hbring]
      exact .inr ⟨by simp, hsettled.1⟩
    | raised e =>
      rw [show trySwitch env cfg naming req volume source w = _ from bind_of_raised hbring]
      exact .inr ⟨by simp, failOpen_rowName_of_settled hsettled⟩
    | ok u =>
      rw [show trySwitch env cfg naming req volume source w = _ from bind_of_ok hbring,
        recordSwitch, executeCommit_apply]
      cases hupdate : env.reply .updateRow with
      | raises e applied => exact .inr ⟨by simp, failOpen_rowName_of_settled hsettled⟩
      | dies applied => exact .inr ⟨by simp, hsettled.1⟩
      | ok =>
        have hview : ((w₁.db.update (switchedRow env req volume)).view).map
            BackendRow.juicefsVolumeName = some volume := by
          simp [Db.update, Db.view, hdb₁, switchedRow]
        have hcommitted : (w₁.db.update (switchedRow env req volume)).committed.map
            BackendRow.juicefsVolumeName = some row.juicefsVolumeName := by
          simp [Db.update, hdb₁]
        simp only [commit]
        cases hcommit : env.reply .commitRow with
        | ok => exact .inl ⟨⟨trivial, trivial, .inl (.inl rfl)⟩, hview⟩
        | dies applied =>
          cases applied with
          | true => exact .inl ⟨⟨trivial, trivial, .inl (.inr rfl)⟩, hview⟩
          | false => exact .inr ⟨by simp [Durable], hcommitted⟩
        | raises e stillOpen =>
          cases stillOpen with
          | false =>
            refine .inr ⟨by simp [Durable], ?_⟩
            exact failOpen_rowName_of_settled ⟨hcommitted, hcommitted⟩
          | true =>
            rcases failOpen_rowName env cfg source
              { w₁ with db := w₁.db.update (switchedRow env req volume) } with
              ⟨⟨hraised, hm, hr⟩, hname⟩ | ⟨hno, hname⟩
            · exact .inl ⟨⟨trivial, trivial, .inr ⟨⟨e, rfl⟩, hm, hraised, hr⟩⟩, hname.trans hview⟩
            · refine .inr ⟨?_, hname.trans hcommitted⟩
              rintro ⟨-, -, hd | ⟨-, hm, hraised, hr⟩⟩
              · simp [Durable] at hd
              · exact hno ⟨hraised, hm, hr⟩

end RowName

/-! ## Boots -/

/-- The row has the settled name `n`, and a formatted volume has it too. -/
def RecordedAs (n : String) (w : World) : Prop := Settled n w ∧ NamedAs n w

theorem nameRecorded_of_rowName {n : String} {w : World} (hrow : w.rowName = some n)
    (hname : NamedAs n w) : NameRecorded w := by
  rw [nameRecorded_iff]
  intro name h
  rw [hname name h, hrow]

theorem nameRecorded_of_unformatted {w : World} (h : w.volume = none) : NameRecorded w := by
  intro f hf
  rw [h] at hf
  cases hf

/-- The states a boot may leave behind. -/
def BootState (w : World) : Prop := (∃ n, RecordedAs n w) ∨ w.volume = none

theorem BootState.nameRecorded {w : World} (h : BootState w) : NameRecorded w := by
  rcases h with ⟨n, hsettled, hname⟩ | hnone
  · exact nameRecorded_of_rowName hsettled.1 hname
  · exact nameRecorded_of_unformatted hnone

section Boot

variable (env : Env) (cfg : Config) {n : String}

/-- `RecordedAs n` is kept. -/
def KeepsRecordedAs (n : String) (w w' : World) : Prop := RecordedAs n w → RecordedAs n w'

instance (n : String) : Std.Refl (KeepsRecordedAs n) := ⟨fun _ h => h⟩

instance (n : String) : IsTrans World (KeepsRecordedAs n) := ⟨fun _ _ _ h₁ h₂ h => h₂ (h₁ h)⟩

theorem within_keepsRecordedAs {α : Type} {x : ArchiveProc α} (hs : Within (KeepsSettled n) x)
    (hv : Within (KeepsNamedAs n) x) : Within (KeepsRecordedAs n) x :=
  fun w h => ⟨hs w h.1, hv w h.2⟩

theorem setStateMessage_keepsRecordedAs (k : Nat) (message : Option String) :
    Within (KeepsRecordedAs n) (setStateMessage env k message) :=
  within_keepsRecordedAs (setStateMessage_keepsSettled env k message)
    ((setStateMessage_volumeName env k message).mono fun _ _ => keepsNamedAs_of_volumeName)

theorem mount_keepsRecordedAs (st : Stage) (creds : Option Creds) :
    Within (KeepsRecordedAs n) (mount env cfg st creds) := by
  have hframe := mount_besideService env cfg st creds
  refine within_keepsRecordedAs (hframe.mono fun _ _ h => ?_) (hframe.mono fun _ _ h => ?_)
  · exact keepsSettled_of_db (besideService_fields h).1
  · exact keepsNamedAs_of_volumeName (volumeName_of_besideService h)

theorem ensureLocalVolumeFormatted_keepsRecordedAs (hn : n ≠ "") :
    Within (KeepsRecordedAs n) (ensureLocalVolumeFormatted env cfg n) :=
  within_keepsRecordedAs
    ((ensureLocalVolumeFormatted_besideSetup env cfg n).mono
      fun _ _ h => keepsSettled_of_db (besideSetup_fields h).1)
    (ensureLocalVolumeFormatted_keepsNamedAs env cfg hn)

/-- Formatting and mounting under the recorded name. -/
theorem formatAndMount_keepsRecordedAs (hn : n ≠ "") :
    Within (KeepsRecordedAs n) (do
      ensureLocalVolumeFormatted env cfg n
      mount env cfg .attach none
      setStateMessage env 0 none) := by
  refine within_bind (ensureLocalVolumeFormatted_keepsRecordedAs env cfg hn) fun _ => ?_
  refine within_bind (mount_keepsRecordedAs env cfg _ _) fun _ => ?_
  exact setStateMessage_keepsRecordedAs env 0 none

/-- Recording the name the row has already. -/
theorem setJuicefsVolumeName_keepsRecordedAs :
    Within (KeepsRecordedAs n) (setJuicefsVolumeName env n) := by
  refine within_keepsRecordedAs ?_ ?_
  · exact within_bind (execute_keepsSettled env _ fun _ _ => rfl)
      fun _ => commit_keepsSettled env _
  · exact (setJuicefsVolumeName_besideDb env n).mono
      fun _ _ h => keepsNamedAs_of_volumeName (volumeName_of_besideDb h)

theorem ensureJuicefsInstalled_keepsRecordedAs :
    Within (KeepsRecordedAs n) (ensureJuicefsInstalled env) :=
  within_keepsRecordedAs
    ((ensureJuicefsInstalled_besideSetup env).mono
      fun _ _ h => keepsSettled_of_db (besideSetup_fields h).1)
    ((ensureJuicefsInstalled_volume env).mono fun _ _ => keepsNamedAs_of_volume)

/-- What keeps every recorded name and the volume keeps a boot state. -/
theorem bootState_of_within {α : Type} {x : ArchiveProc α} {w : World}
    (hrecorded : ∀ n, Within (KeepsRecordedAs n) x) (hvol : Within (Same World.volume) x)
    (h : BootState w) : BootState (x w).2 := by
  rcases h with ⟨n, hn⟩ | hnone
  · exact .inl ⟨n, hrecorded n w hn⟩
  · exact .inr ((hvol w).trans hnone)

theorem setStateMessage_volume (k : Nat) (message : Option String) :
    Within (Same World.volume) (setStateMessage env k message) :=
  (setStateMessage_besideDb env k message).mono fun _ _ h => (besideDb_fields h).1

theorem reportBootFailure_bootState (logText message : String) (exc : PyError) {w : World}
    (h : BootState w) : BootState (reportBootFailure env logText message exc w).2 :=
  bootState_of_within
    (fun _ => within_bind (within_modify fun _ hn => hn)
      fun _ => setStateMessage_keepsRecordedAs env 1 _)
    (within_bind (within_modify fun _ => rfl) fun _ => setStateMessage_volume env 1 _) h

/-- A recorded name is settled, also on an unformatted volume. -/
theorem setJuicefsVolumeName_ok {w w' : World} {u : Unit} (hrow : w.db.view.isSome)
    (h : setJuicefsVolumeName env n w = (.ok u, w')) : Settled n w' ∧ w'.volume = w.volume := by
  obtain ⟨_, w₁, hexec, hcommit⟩ := bind_ok_iff.mp h
  obtain ⟨-, rfl⟩ := execute_ok hexec
  obtain ⟨-, rfl⟩ := commit_ok hcommit
  obtain ⟨row, hview⟩ := Option.isSome_iff_exists.mp hrow
  have hnamed : ((w.db.update fun r => { r with juicefsVolumeName := n }).view).map
      BackendRow.juicefsVolumeName = some n := by
    rw [Db.update, hview]
    rfl
  exact ⟨⟨hnamed, hnamed⟩, rfl⟩

/-- A state with a name the boot can work with: the settled name of the row, or on an unformatted
volume the historical name, which the boot replaces. -/
def Startable (name : String) (w : World) : Prop :=
  w.db.view.isSome ∧ NamedAs name w ∧
    (Settled name w ∨ (w.volume = none ∧ name = defaultVolumeName))

theorem Startable.bootState {name : String} {w : World} (h : Startable name w) : BootState w := by
  obtain ⟨-, hname, hsettled | ⟨hnone, -⟩⟩ := h
  · exact .inl ⟨name, hsettled, hname⟩
  · exact .inr hnone

theorem Startable.of_same {name : String} {w w' : World} (h : Startable name w)
    (hdb : w'.db = w.db) (hvol : w'.volume = w.volume) : Startable name w' := by
  unfold Startable Settled NamedAs World.rowName World.volumeName at *
  rwa [hdb, hvol]

theorem ensureJuicefsInstalled_startable {name : String} {w w' : World}
    {o : Outcome PyError Unit} (h : Startable name w)
    (hrun : ensureJuicefsInstalled env w = (o, w')) : Startable name w' := by
  refine h.of_same ?_ ((ensureJuicefsInstalled_volume env).of_eq hrun)
  exact (besideSetup_fields ((ensureJuicefsInstalled_besideSetup env).of_eq hrun)).1

/-- The first boot, as `attach_on_startup` sees it: the volume looks unformatted and the row has the
historical name. -/
def LooksFresh (name : String) (w : World) : Prop :=
  (w.volume.isSome && !env.locked .lookFormatted) = false ∧ name = defaultVolumeName

theorem firstBootVolumeName_of_looksFresh {name : String} {w : World}
    (h : LooksFresh env name w) :
    firstBootVolumeName env name w =
      (do
        setJuicefsVolumeName env (zoneVolumeName env)
        return zoneVolumeName env : ArchiveProc String) w := by
  unfold LooksFresh at h
  simp only [firstBootVolumeName, localVolumeFormatted, bind_apply, reads_apply]
  rw [if_pos h]
  rfl

theorem firstBootVolumeName_of_not_looksFresh {name : String} {w : World}
    (h : ¬LooksFresh env name w) : firstBootVolumeName env name w = (.ok name, w) := by
  unfold LooksFresh at h
  simp only [firstBootVolumeName, localVolumeFormatted, bind_apply, reads_apply]
  rw [if_neg h]
  rfl

/-- On an unformatted volume the zone's name is recorded before it is used. -/
theorem firstBootVolumeName_unformatted {name : String} {w w' : World} {picked : String}
    (hstart : Startable name w) (hnone : w.volume = none)
    (h : firstBootVolumeName env name w = (.ok picked, w')) (hne : name ≠ "") :
    picked ≠ "" ∧ RecordedAs picked w' := by
  have hnamed (n : String) : NamedAs n w := by
    intro m hm
    simp [World.volumeName, hnone] at hm
  by_cases hfresh : LooksFresh env name w
  · rw [firstBootVolumeName_of_looksFresh env hfresh] at h
    obtain ⟨_, w₁, hset, hpure⟩ := bind_ok_iff.mp h
    obtain ⟨hpicked, rfl⟩ := Prod.mk.inj hpure
    obtain rfl := Outcome.ok.inj hpicked
    obtain ⟨hsettled, hvol⟩ := setJuicefsVolumeName_ok env hstart.1 hset
    refine ⟨defaultVolumeNameForZone_ne_empty _ _, hsettled, fun m hm => ?_⟩
    rw [World.volumeName, hvol, hnone] at hm
    cases hm
  · rw [firstBootVolumeName_of_not_looksFresh env hfresh] at h
    obtain ⟨hpicked, rfl⟩ := Prod.mk.inj h
    cases hpicked
    refine ⟨hne, hstart.2.2.resolve_right fun hno => hfresh ⟨?_, hno.2⟩, hnamed _⟩
    rw [hno.1]
    rfl

/-- On a formatted volume the recorded name is used. -/
theorem firstBootVolumeName_formatted {name : String} {w : World} (hrecorded : RecordedAs name w)
    (hzone : LooksFresh env name w → zoneVolumeName env = name) :
    RecordedAs name (firstBootVolumeName env name w).2 ∧
      ∀ picked w', firstBootVolumeName env name w = (.ok picked, w') → picked = name := by
  by_cases hfresh : LooksFresh env name w
  · rw [firstBootVolumeName_of_looksFresh env hfresh, hzone hfresh]
    constructor
    · exact within_bind (setJuicefsVolumeName_keepsRecordedAs env) (fun _ => within_pure _) w
        hrecorded
    · intro picked w' h
      obtain ⟨_, w₁, -, hpure⟩ := bind_ok_iff.mp h
      cases (Prod.mk.inj hpure).1
      rfl
  · rw [firstBootVolumeName_of_not_looksFresh env hfresh]
    refine ⟨hrecorded, fun picked w' h => ?_⟩
    cases (Prod.mk.inj h).1
    rfl

theorem firstBootVolumeName_volume (name : String) :
    Within (Same World.volume) (firstBootVolumeName env name) := by
  refine within_bind (within_reads _) fun _ => within_ite (fun _ => ?_) fun _ => within_pure _
  exact within_bind ((setJuicefsVolumeName_besideDb env _).mono
    fun _ _ h => (besideDb_fields h).1) fun _ => within_pure _

/-- Bringing up the local backend, when a formatted volume does not look fresh, or has the zone's
name already. -/
theorem bringUpLocal_bootState {state : BackendRow} {w : World}
    (hstart : Startable state.juicefsVolumeName w) (hne : state.juicefsVolumeName ≠ "")
    (hzone : w.volume ≠ none → LooksFresh env state.juicefsVolumeName w →
      zoneVolumeName env = state.juicefsVolumeName) :
    BootState (bringUpLocal env cfg state w).2 := by
  refine bind_post (fun _ w₁ hinst => ?_)
    (fun _ w₁ hinst => (ensureJuicefsInstalled_startable env hstart hinst).bootState)
    fun w₁ hinst => (ensureJuicefsInstalled_startable env hstart hinst).bootState
  have hvol₁ : w₁.volume = w.volume := (ensureJuicefsInstalled_volume env).of_eq hinst
  have hstart₁ := ensureJuicefsInstalled_startable env hstart hinst
  cases hvol : w.volume with
  | none =>
    have hnone₁ : w₁.volume = none := hvol₁.trans hvol
    have hnone {o : Outcome PyError String} {w₂ : World}
        (hfirst : firstBootVolumeName env state.juicefsVolumeName w₁ = (o, w₂)) :
        w₂.volume = none :=
      ((firstBootVolumeName_volume env _).of_eq hfirst).trans hnone₁
    refine bind_post (fun picked w₂ hfirst => ?_) (fun _ w₂ hfirst => .inr (hnone hfirst))
      fun w₂ hfirst => .inr (hnone hfirst)
    obtain ⟨hp, hrecorded⟩ := firstBootVolumeName_unformatted env hstart₁ hnone₁ hfirst hne
    exact .inl ⟨_, formatAndMount_keepsRecordedAs env cfg hp w₂ hrecorded⟩
  | some f =>
    have hsome : w.volume ≠ none := by simp [hvol]
    have hrecorded : RecordedAs state.juicefsVolumeName w₁ := by
      refine ⟨hstart₁.2.2.resolve_right fun hno => hsome ?_, hstart₁.2.1⟩
      rw [← hvol₁, hno.1]
    have hzone₁ (h : LooksFresh env state.juicefsVolumeName w₁) :
        zoneVolumeName env = state.juicefsVolumeName := by
      rw [LooksFresh, hvol₁] at h
      exact hzone hsome h
    obtain ⟨hafter, hpicked⟩ := firstBootVolumeName_formatted env hrecorded hzone₁
    refine .inl ⟨state.juicefsVolumeName, bind_post (fun picked w₂ hfirst => ?_)
      (fun _ w₂ hfirst => ?_) fun w₂ hfirst => ?_⟩
    · rw [hfirst] at hafter
      rw [hpicked picked w₂ hfirst]
      exact formatAndMount_keepsRecordedAs env cfg hne w₂ hafter
    · rwa [hfirst] at hafter
    · rwa [hfirst] at hafter

/-- A boot gives the row of a formatted volume the zone's name: it finds the metadata database
locked while the row has the historical name, and the new name becomes durable. -/
def BootRenames (w : World) : Prop :=
  env.linuxHost = true ∧ (readState w.db.view).backend = .localDisk ∧
    (ensureJuicefsInstalled env w).1 = .ok () ∧
    LooksFresh env (readState w.db.view).juicefsVolumeName w ∧
    env.reply .setVolumeName = .ok ∧
    (Durable (env.reply .commitVolumeName) ∨
      ((∃ e, env.reply .commitVolumeName = .raises e true) ∧ env.reply (.setMessage 1) = .ok ∧
        Durable (env.reply (.commitMessage 1))))

/-- The handlers commit the name of the open transaction, when their message commits. -/
theorem reportBootFailure_rowName (logText message : String) (exc : PyError) (w : World) :
    (reportBootFailure env logText message exc w).2.rowName = w.rowName ∨
      ((env.reply (.setMessage 1) = .ok ∧ Durable (env.reply (.commitMessage 1))) ∧
        (reportBootFailure env logText message exc w).2.rowName =
          w.db.view.map BackendRow.juicefsVolumeName) := by
  rcases setStateMessage_rowName env 1 (some (message ++ exc.text))
    { w with log := w.log ++ [logText] } with ⟨hr, hname⟩ | ⟨hr, hname⟩
  · exact .inr ⟨hr, hname⟩
  · exact .inl hname

theorem reportBootFailure_rowName_of_settled (logText message : String) (exc : PyError)
    {w : World} (h : Settled n w) :
    (reportBootFailure env logText message exc w).2.rowName = some n := by
  rcases reportBootFailure_rowName env logText message exc w with hname | ⟨-, hname⟩
  · exact hname.trans h.1
  · exact hname.trans h.2

/-- A forced name that does not become durable leaves the row's name as it was. -/
theorem bringUpLocal_rowName_of_forced {state : BackendRow} {w : World} (logText message : String)
    (hrecorded : RecordedAs state.juicefsVolumeName w)
    (hfresh : LooksFresh env state.juicefsVolumeName w)
    (hno : (ensureJuicefsInstalled env w).1 = .ok () → env.reply .setVolumeName = .ok →
      ¬(Durable (env.reply .commitVolumeName) ∨
        ((∃ e, env.reply .commitVolumeName = .raises e true) ∧ env.reply (.setMessage 1) = .ok ∧
          Durable (env.reply (.commitMessage 1))))) :
    (tryExcept (bringUpLocal env cfg state) PyError.isException
      (reportBootFailure env logText message) w).2.rowName = some state.juicefsVolumeName := by
  have hinstalled := ensureJuicefsInstalled_keepsRecordedAs env w hrecorded
  have hvol₁ := ensureJuicefsInstalled_volume env w
  unfold tryExcept bringUpLocal
  cases hinst : ensureJuicefsInstalled env w with
  | mk o w₁ =>
    rw [hinst] at hinstalled hvol₁ hno
    rw [bind_apply, hinst]
    have hsettled := hinstalled.1
    cases o with
    | raised e => exact reportBootFailure_rowName_of_settled env _ _ e hsettled
    | killed => exact hsettled.1
    | ok u =>
      have hfresh₁ : LooksFresh env state.juicefsVolumeName w₁ := by
        rw [LooksFresh, show w₁.volume = w.volume from hvol₁]
        exact hfresh
      dsimp only
      rw [bind_apply, firstBootVolumeName_of_looksFresh env hfresh₁, bind_apply,
        setJuicefsVolumeName, executeCommit_apply]
      cases hset : env.reply .setVolumeName with
      | raises e applied => exact reportBootFailure_rowName_of_settled env _ _ e hsettled
      | dies applied => exact hsettled.1
      | ok =>
        have hnot := hno rfl hset
        simp only [commit]
        cases hcommit : env.reply .commitVolumeName with
        | ok => exact absurd (.inl (.inl hcommit)) hnot
        | dies applied =>
          cases applied with
          | true => exact absurd (.inl (.inr hcommit)) hnot
          | false => exact hsettled.1
        | raises e stillOpen =>
          cases stillOpen with
          | false =>
            exact reportBootFailure_rowName_of_settled env _ _ e ⟨hsettled.1, hsettled.1⟩
          | true =>
            rcases reportBootFailure_rowName env logText message e
              { w₁ with db := w₁.db.update fun r =>
                  { r with juicefsVolumeName := zoneVolumeName env } } with hname | ⟨hr, -⟩
            · exact hname.trans hsettled.1
            · exact absurd (.inr ⟨⟨e, hcommit⟩, hr⟩) hnot

theorem bringUpS3_bootState {state : BackendRow} {w : World} (h : BootState w) :
    BootState (bringUpS3 env cfg state w).2 := by
  refine bootState_of_within (fun n => ?_) ?_ h
  · refine within_bind (ensureJuicefsInstalled_keepsRecordedAs env) fun _ => ?_
    split
    · exact within_bind (mount_keepsRecordedAs env cfg _ _)
        fun _ => setStateMessage_keepsRecordedAs env 0 _
    · exact within_raise _
  · refine within_bind (ensureJuicefsInstalled_volume env) fun _ => ?_
    split
    · refine within_bind ?_ fun _ => setStateMessage_volume env 0 _
      exact (mount_besideService env cfg _ _).mono fun _ _ h => (besideService_fields h).2.1
    · exact within_raise _

/-- A `try` block that leaves a boot state, with its handler. -/
theorem tryReport_nameRecorded {x : ArchiveProc Unit} {w : World} (logText message : String)
    (h : BootState (x w).2) :
    NameRecorded (tryExcept x PyError.isException
      (reportBootFailure env logText message) w).2 := by
  refine tryExcept_post (fun _ => rfl) (fun _ w₁ hrun => ?_) (fun e w₁ hrun => ?_)
    fun w₁ hrun => ?_
  · rw [hrun] at h
    exact h.nameRecorded
  · rw [hrun] at h
    exact (reportBootFailure_bootState env _ _ e h).nameRecorded
  · rw [hrun] at h
    exact h.nameRecorded

/-- No boot renames a formatted volume. -/
theorem bringUpLocal_keepsName (state : BackendRow) :
    Within KeepsName (bringUpLocal env cfg state) := by
  refine within_bind ((ensureJuicefsInstalled_volume env).mono fun _ _ => .of_same) fun _ => ?_
  refine within_bind ((firstBootVolumeName_volume env _).mono fun _ _ => .of_same) fun name => ?_
  refine within_bind (ensureLocalVolumeFormatted_keepsName env cfg name) fun _ => ?_
  refine within_bind ((mount_besideService env cfg _ _).mono
    fun _ _ h => .of_same (besideService_fields h).2.1) fun _ => ?_
  exact (setStateMessage_volume env 0 none).mono fun _ _ => .of_same

/-- A formatted volume that is not renamed keeps its name. -/
theorem namedAs_of_keepsName {w w' : World} (hsome : w.volume ≠ none) (hn : NamedAs n w)
    (h : KeepsName w w') : NamedAs n w' := by
  obtain ⟨f, hf⟩ := Option.ne_none_iff_exists'.mp hsome
  have hname := h f.name (by rw [hf]; rfl)
  intro m hm
  rw [World.volumeName, hname] at hm
  cases hm
  exact hn _ (by rw [World.volumeName, hf]; rfl)

/-- The boot works with the name of the row. -/
theorem startable_of_nameRecorded {row : BackendRow} {w : World} (hdb : w.db = ⟨some row, none⟩)
    (hrecord : NameRecorded w) :
    Startable (readState (some row)).juicefsVolumeName w ∧
      (w.volume ≠ none → row.juicefsVolumeName = (readState (some row)).juicefsVolumeName) := by
  have hrowName : w.rowName = some row.juicefsVolumeName := by rw [World.rowName, hdb]; rfl
  have hview : w.db.view = some row := by rw [hdb]; rfl
  have hnamed : w.volume ≠ none → row.juicefsVolumeName ≠ "" ∧ NamedAs row.juicefsVolumeName w := by
    intro hsome
    have hrecord' := (nameRecorded_iff w).mp hrecord
    refine ⟨?_, fun n hn => ?_⟩
    · obtain ⟨f, hf⟩ := Option.ne_none_iff_exists'.mp hsome
      have hn : w.volumeName = some f.name.val := by rw [World.volumeName, hf]; rfl
      have heq := Option.some.inj ((hrecord' _ hn).symm.trans hrowName)
      intro hempty
      have hvalid := f.name.valid
      rw [heq, hempty] at hvalid
      exact absurd hvalid (by decide)
    · exact Option.some.inj ((hrecord' n hn).symm.trans hrowName)
  have hread : row.juicefsVolumeName ≠ "" →
      (readState (some row)).juicefsVolumeName = row.juicefsVolumeName :=
    fun h => orElse_some_of_ne h
  refine ⟨⟨by rw [hview]; rfl, ?_, ?_⟩, fun hsome => (hread (hnamed hsome).1).symm⟩
  · by_cases hsome : w.volume = none
    · intro n hn
      rw [World.volumeName, hsome] at hn
      cases hn
    · rw [hread (hnamed hsome).1]
      exact (hnamed hsome).2
  · by_cases hempty : row.juicefsVolumeName = ""
    · refine .inr ⟨?_, ?_⟩
      · by_contra hsome
        exact (hnamed hsome).1 hempty
      · simp [readState, orElse, truthy?, hempty]
    · rw [hread hempty]
      exact .inl ⟨hrowName, by rw [hview]; rfl⟩

/-- A boot keeps the name recorded, unless it forces another one on a formatted volume. -/
theorem attachOnStartup_nameRecorded {row : BackendRow} {w : World}
    (hdb : w.db = ⟨some row, none⟩) (hrecord : NameRecorded w)
    (hkeep : w.volume ≠ none → BootRenames env w → zoneVolumeName env = row.juicefsVolumeName) :
    NameRecorded (attachOnStartup env cfg w).2 := by
  have hview : w.db.view = some row := by rw [hdb]; rfl
  obtain ⟨hstart, hrowName⟩ := startable_of_nameRecorded hdb hrecord
  have hne : (readState (some row)).juicefsVolumeName ≠ "" := orElse_ne_empty _ (by decide)
  generalize hstate : readState (some row) = state at hstart hrowName hne
  have hboot := hstart.bootState
  unfold attachOnStartup
  rw [bind_apply, reads_apply, hview, hstate]
  dsimp only
  by_cases hlinux : state.backend ≠ .disabled ∧ env.linuxHost = false
  · rw [if_pos hlinux]
    exact (bootState_of_within (fun _ => setStateMessage_keepsRecordedAs env 0 _)
      (setStateMessage_volume env 0 _) hboot).nameRecorded
  rw [if_neg hlinux]
  cases hbackend : state.backend with
  | disabled => exact hrecord
  | s3 => exact tryReport_nameRecorded env _ _ (bringUpS3_bootState env cfg hboot)
  | localDisk =>
    by_cases hforced : w.volume ≠ none ∧ LooksFresh env state.juicefsVolumeName w ∧
        zoneVolumeName env ≠ state.juicefsVolumeName
    · obtain ⟨hsome, hfresh, hzone⟩ := hforced
      have hrecorded : RecordedAs state.juicefsVolumeName w :=
        ⟨hstart.2.2.resolve_right fun hno => hsome hno.1, hstart.2.1⟩
      have hno : ¬BootRenames env w := fun hrenames =>
        hzone ((hkeep hsome hrenames).trans (hrowName hsome))
      have hlinux' : env.linuxHost = true := by
        by_contra hoff
        exact hlinux ⟨by simp [hbackend], by simpa using hoff⟩
      have hrow := bringUpLocal_rowName_of_forced env cfg
        "Failed to bring up local archive backend on startup"
        "Failed to bring up local archive backend: " hrecorded hfresh fun hinst hset hdurable => by
          refine hno ⟨hlinux', ?_, hinst, ?_, hset, hdurable⟩
          · rw [hview, hstate, hbackend]
          · rw [hview, hstate]
            exact hfresh
      refine nameRecorded_of_rowName hrow (namedAs_of_keepsName hsome hstart.2.1 ?_)
      refine within_tryExcept (bringUpLocal_keepsName env cfg state) (fun exc => ?_) w
      refine within_bind (within_modify fun _ _ h => h) fun _ => ?_
      exact (setStateMessage_volume env 1 _).mono fun _ _ => .of_same
    · refine tryReport_nameRecorded env _ _ (bringUpLocal_bootState env cfg hstart hne
        fun hsome hfresh => ?_)
      by_contra hzone
      exact hforced ⟨hsome, hfresh, hzone⟩

/-- The row is there. -/
def HasRow (w : World) : Prop := w.db.committed.isSome ∧ w.db.view.isSome

/-- The row stays there. -/
def KeepsRow (w w' : World) : Prop := HasRow w → HasRow w'

instance : Std.Refl KeepsRow := ⟨fun _ h => h⟩

instance : IsTrans World KeepsRow := ⟨fun _ _ _ h₁ h₂ h => h₂ (h₁ h)⟩

theorem keepsRow_of_db {w w' : World} (h : w'.db = w.db) : KeepsRow w w' := by
  intro hrow
  rwa [HasRow, h]

theorem execute_keepsRow (site : Site) (f : BackendRow → BackendRow) :
    Within KeepsRow (execute env site f) := by
  intro w hrow
  unfold execute
  split
  · refine ⟨hrow.1, ?_⟩
    have hview : (w.db.view.map f).isSome = true := by rw [Option.isSome_map]; exact hrow.2
    exact hview
  · exact hrow
  · exact hrow

theorem commit_keepsRow (site : Site) : Within KeepsRow (commit env site) := by
  intro w hrow
  have hcommit : HasRow { w with db := w.db.commit } := ⟨hrow.2, hrow.2⟩
  have hrollback : HasRow { w with db := w.db.rollback } := ⟨hrow.1, hrow.1⟩
  unfold commit
  split
  · exact hcommit
  · dsimp only
    split
    · exact hrow
    · exact hrollback
  · dsimp only
    split
    · exact hcommit
    · exact hrow

theorem setStateMessage_keepsRow (k : Nat) (message : Option String) :
    Within KeepsRow (setStateMessage env k message) :=
  within_bind (execute_keepsRow env _ _) fun _ => commit_keepsRow env _

theorem attachOnStartup_keepsRow : Within KeepsRow (attachOnStartup env cfg) := by
  have hinstall : Within KeepsRow (ensureJuicefsInstalled env) :=
    (ensureJuicefsInstalled_besideSetup env).mono
      fun _ _ h => keepsRow_of_db (besideSetup_fields h).1
  have hmount (creds : Option Creds) : Within KeepsRow (mount env cfg .attach creds) :=
    (mount_besideService env cfg _ _).mono fun _ _ h => keepsRow_of_db (besideService_fields h).1
  have hreport (logText message : String) (exc : PyError) :
      Within KeepsRow (reportBootFailure env logText message exc) :=
    within_bind (within_modify fun _ h => h) fun _ => setStateMessage_keepsRow env 1 _
  refine within_bind (within_reads _) fun state => within_ite
    (fun _ => setStateMessage_keepsRow env 0 _) fun _ => ?_
  cases state.backend with
  | disabled => exact within_pure _
  | s3 =>
    refine within_tryExcept (within_bind hinstall fun _ => ?_) (hreport _ _)
    split
    · exact within_bind (hmount _) fun _ => setStateMessage_keepsRow env 0 _
    · exact within_raise _
  | localDisk =>
    refine within_tryExcept (within_bind hinstall fun _ => ?_) (hreport _ _)
    refine within_bind ?_ fun name => ?_
    · refine within_bind (within_reads _) fun _ => within_ite (fun _ => ?_) fun _ => within_pure _
      refine within_bind ?_ fun _ => within_pure _
      exact within_bind (execute_keepsRow env _ _) fun _ => commit_keepsRow env _
    · refine within_bind ((ensureLocalVolumeFormatted_besideSetup env cfg name).mono
        fun _ _ h => keepsRow_of_db (besideSetup_fields h).1) fun _ => ?_
      exact within_bind (hmount _) fun _ => setStateMessage_keepsRow env 0 _

end Boot

/-! ## Configure requests -/

/-- A request keeps the name recorded: on a formatted volume a switch that becomes durable has picked
its name, and on an unformatted one a format is followed by a durable switch, or used the name of the
row. -/
def ConfigureKeepsRecord (env : Env) (cfg : Config) (naming : S3Naming) (req : ConfigureRequest)
    (source : Source) (w : World) : Prop :=
  (SwitchCommitted env cfg naming req source w →
      ∀ f, w.volume = some f → pickedName env req w = f.name.val) ∧
    (¬SwitchCommitted env cfg naming req source w → w.volume = none →
      (bringOver env cfg naming req (pickedName env req w) source w).2.volume ≠ none →
        w.rowName = some (pickedName env req w))

theorem configureBackend_nameRecorded_iff {env : Env} {cfg : Config} {naming : S3Naming}
    {req : ConfigureRequest} {source : Source} {row : BackendRow} {w : World}
    (hdb : w.db = ⟨some row, none⟩) (hrecord : NameRecorded w)
    (hsource : sourceOf (readState w.db.view) = .ok source) :
    NameRecorded (configureBackend env cfg naming req w).2 ↔
      ConfigureKeepsRecord env cfg naming req source w := by
  have hrow : w.rowName = some row.juicefsVolumeName := by rw [World.rowName, hdb]; rfl
  have hname : (configureBackend env cfg naming req w).2.volumeName = _ :=
    configureBackend_volumeName hsource
  have hne := pickedName_ne_empty env req w
  have hkeeps := bringOver_within (acrossSteps_keepsName env cfg (pickedName env req w)) naming req
    source w
  have hnamed := bringOver_within (acrossSteps_keepsNamedAs env cfg hne) naming req source w
  have hafter : (SwitchCommitted env cfg naming req source w ∧ _) ∨ _ :=
    configureBackend_rowName hdb hsource
  rw [nameRecorded_iff, hname]
  cases hvol : w.volume with
  | some f =>
    have hfinal : (bringOver env cfg naming req (pickedName env req w) source w).2.volumeName =
        some f.name.val := by
      rw [World.volumeName, hkeeps f.name (by rw [hvol]; rfl)]
      rfl
    have hbefore : row.juicefsVolumeName = f.name.val :=
      Option.some.inj (hrow.symm.trans (hrecord f hvol).1)
    rw [hfinal]
    rcases hafter with ⟨hc, hrowName⟩ | ⟨hc, hrowName⟩
    · rw [hrowName]
      constructor
      · intro h
        refine ⟨fun _ g hg => ?_, fun hno => absurd hc hno⟩
        cases Option.some.inj (hvol.symm.trans hg)
        exact Option.some.inj (h _ rfl)
      · rintro ⟨h, -⟩ n hn
        rw [h hc f hvol, Option.some.inj hn]
    · rw [hrowName]
      refine iff_of_true (fun n hn => ?_) ⟨fun h => absurd h hc, fun _ hno => ?_⟩
      · rw [hbefore, Option.some.inj hn]
      · rw [hvol] at hno
        cases hno
  | none =>
    have hpicked : NamedAs (pickedName env req w)
        (bringOver env cfg naming req (pickedName env req w) source w).2 := by
      refine hnamed fun n hn => ?_
      rw [World.volumeName, hvol] at hn
      cases hn
    rcases hafter with ⟨hc, hrowName⟩ | ⟨hc, hrowName⟩
    · rw [hrowName]
      refine iff_of_true (fun n hn => ?_) ⟨fun _ f hf => ?_, fun hno => absurd hc hno⟩
      · rw [hpicked n hn]
      · rw [hvol] at hf
        cases hf
    · rw [hrowName]
      constructor
      · intro h
        refine ⟨fun hno => absurd hno hc, fun _ _ hformatted => ?_⟩
        obtain ⟨g, hg⟩ := Option.ne_none_iff_exists'.mp hformatted
        have hgname : (bringOver env cfg naming req (pickedName env req w) source w).2.volumeName =
            some g.name.val := by
          rw [World.volumeName, hg]
          rfl
        rw [hrow, ← hpicked _ hgname]
        exact h _ hgname
      · rintro ⟨-, h⟩ n hn
        have hformatted : (bringOver env cfg naming req (pickedName env req w) source w).2.volume ≠
            none := by
          intro hno
          rw [World.volumeName, hno] at hn
          cases hn
        rw [hpicked n hn, ← h hc hvol hformatted, hrow]

/-! ## Runs -/

/-- What may happen to the archive. -/
inductive Event where
  /-- The server boots. -/
  | boot (env : Env)
  /-- The owner asks for an S3 store. -/
  | configure (env : Env) (req : ConfigureRequest)

/-- The connection is closed, with its process or by it: an open transaction is lost. -/
def World.closeDb (w : World) : World := { w with db := w.db.rollback }

/-- What an event makes of the world; a reply of its environment may kill it anywhere. -/
def Event.apply (cfg : Config) (naming : S3Naming) (w : World) : Event → World
  | .boot env => (attachOnStartup env cfg w).2.closeDb
  | .configure env req => (configureBackend env cfg naming req w).2.closeDb

/-- The steps of the archive. -/
def archiveStep (cfg : Config) (naming : S3Naming) (w : World) (a : Event) (w' : World) : Prop :=
  w' = a.apply cfg naming w

/-- The event keeps the name recorded. -/
def Event.KeepsRecord (cfg : Config) (naming : S3Naming) (w : World) : Event → Prop
  | .boot env => ∀ f, w.volume = some f → BootRenames env w → zoneVolumeName env = f.name.val
  | .configure env req => ∀ source, sourceOf (readState w.db.view) = .ok source →
      ConfigureKeepsRecord env cfg naming req source w

/-- Between events the row is there, without an open transaction. -/
def AtRest (w : World) : Prop := ∃ row, w.db = ⟨some row, none⟩

theorem atRest_closeDb {w : World} (h : w.db.committed.isSome) : AtRest w.closeDb := by
  obtain ⟨row, hrow⟩ := Option.isSome_iff_exists.mp h
  exact ⟨row, by rw [World.closeDb, Db.rollback, hrow]⟩

theorem event_atRest {cfg : Config} {naming : S3Naming} {w : World} (a : Event) (h : AtRest w) :
    AtRest (a.apply cfg naming w) := by
  obtain ⟨row, hdb⟩ := h
  cases a with
  | boot env =>
    refine atRest_closeDb (attachOnStartup_keepsRow env cfg w ?_).1
    rw [HasRow, hdb]
    exact ⟨rfl, rfl⟩
  | configure env req =>
    refine atRest_closeDb ?_
    cases hsource : sourceOf (readState w.db.view) with
    | error e =>
      rw [configureBackend_refused hsource, hdb]
      rfl
    | ok source =>
      have hafter : (SwitchCommitted env cfg naming req source w ∧ _) ∨ _ :=
        configureBackend_rowName hdb hsource
      have hsome : (configureBackend env cfg naming req w).2.rowName.isSome := by
        rcases hafter with ⟨-, hname⟩ | ⟨-, hname⟩
        · rw [hname]
          rfl
        · rw [hname]
          rfl
      simpa only [World.rowName, Option.isSome_map] using hsome

/-- One event that meets the condition keeps the name recorded. -/
theorem event_nameRecorded {cfg : Config} {naming : S3Naming} {w : World} {a : Event}
    (hrest : AtRest w) (hrecord : NameRecorded w) (hkeeps : a.KeepsRecord cfg naming w) :
    NameRecorded (a.apply cfg naming w) := by
  obtain ⟨row, hdb⟩ := hrest
  cases a with
  | boot env =>
    refine attachOnStartup_nameRecorded env cfg hdb hrecord fun hsome hrenames => ?_
    obtain ⟨f, hf⟩ := Option.ne_none_iff_exists'.mp hsome
    have hrow := (hrecord f hf).1
    rw [hdb] at hrow
    rw [hkeeps f hf hrenames]
    exact (Option.some.inj hrow).symm
  | configure env req =>
    cases hsource : sourceOf (readState w.db.view) with
    | error e =>
      rw [Event.apply, configureBackend_refused hsource]
      exact hrecord
    | ok source =>
      exact (configureBackend_nameRecorded_iff hdb hrecord hsource).mpr (hkeeps source hsource)

/-- In every run whose events meet the condition, the row records the name of the formatted volume
in every state reached. -/
theorem nameRecorded_of_reach {cfg : Config} {naming : S3Naming} {w₀ w : World}
    (hrest : AtRest w₀) (hrecord : NameRecorded w₀)
    (hrun : Reach (archiveStep cfg naming) (fun w a => a.KeepsRecord cfg naming w) w₀ w) :
    NameRecorded w := by
  refine (hrun.invariant (fun w => AtRest w ∧ NameRecorded w) ⟨hrest, hrecord⟩ ?_).2
  rintro w a w' ⟨hr, hn⟩ hkeeps rfl
  exact ⟨event_atRest a hr, event_nameRecorded hr hn hkeeps⟩

/-! ### A zone whose first boot could not install JuiceFS -/

/-- A new zone. -/
def newZone : World where
  db := { committed := some (readState none), pending := none }
  volume := none
  juicefsInstalled := false
  files _ := none
  buckets _ _ := none
  service := .stopped
  envFile := none
  log := []

theorem newZone_nameRecorded : NameRecorded newZone := nameRecorded_of_unformatted rfl

/-- The outside world of a download that fails. -/
def failingInstall : Env :=
  { Env.calm with
    reply := fun
      | .install => .raises ⟨.other, "download failed"⟩ false
      | _ => .ok }

/-- The zone after a boot that could not install JuiceFS. -/
def failedBoot : World :=
  (Event.boot failingInstall).apply legacyConfig .virtualHosted newZone

/-- A request for S3 then installs it, formats the volume under the name it was given, and fails in
the copy. -/
def failedRequest : World :=
  (Event.configure failingSync (requestNamed "my-archive")).apply legacyConfig .virtualHosted
    failedBoot

/-- The row still has the historical name. -/
theorem failedRequest_not_nameRecorded :
    Reach (archiveStep legacyConfig .virtualHosted) (fun _ _ => True) newZone failedRequest ∧
      ¬NameRecorded failedRequest := by
  have hboot : archiveStep legacyConfig .virtualHosted newZone (.boot failingInstall) failedBoot :=
    rfl
  have hrequest : archiveStep legacyConfig .virtualHosted failedBoot
      (.configure failingSync (requestNamed "my-archive")) failedRequest := rfl
  refine ⟨.step (.step .refl trivial hboot) trivial hrequest, fun hrecord => ?_⟩
  have hrow := (nameRecorded_iff failedRequest).mp hrecord "my-archive" (by decide)
  exact absurd hrow (by decide)

/-- A calm first boot of the same zone. -/
theorem newZone_boot_nameRecorded :
    NameRecorded ((Event.boot .calm).apply legacyConfig .virtualHosted newZone) := by
  have hboot : archiveStep legacyConfig .virtualHosted newZone (.boot .calm) _ := rfl
  have hkeeps : (Event.boot .calm).KeepsRecord legacyConfig .virtualHosted newZone := by
    intro f hf
    cases hf
  exact nameRecorded_of_reach ⟨readState none, rfl⟩ newZone_nameRecorded
    (.step .refl hkeeps hboot)

end OpenHost.Archive
