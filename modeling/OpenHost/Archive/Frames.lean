import OpenHost.Archive.Configure

/-!
# What each archive operation leaves alone

One frame lemma for every operation of `JuiceFS` and `Configure`:

- the calls to systemd touch only the service and its environment file;
- only `format` and `config` touch the volume, and neither ever renames it;
- only SQL touches the row;
- only `sync` touches the buckets before the reclaim, and nothing before it touches the files.

The theorems about `configure_backend` and `attach_on_startup` are put together from these.
-/

namespace OpenHost.Archive

open OpenHost.Proc

/-! ## Parts of the state -/

/-- Everything but the service and its environment file. -/
def World.besideService (w : World) :=
  (w.db, w.volume, w.juicefsInstalled, w.files, w.buckets, w.log)

/-- The object stores. -/
def World.stores (w : World) := (w.files, w.buckets)

/-- Everything but the row. -/
def World.besideDb (w : World) :=
  (w.volume, w.juicefsInstalled, w.files, w.buckets, w.service, w.envFile, w.log)

/-- Everything but the volume. -/
def World.besideVolume (w : World) :=
  (w.db, w.juicefsInstalled, w.files, w.buckets, w.service, w.envFile, w.log)

/-- A formatted volume stays formatted under its name. -/
def KeepsName (w w' : World) : Prop :=
  ∀ n, w.volume.map Format.name = some n → w'.volume.map Format.name = some n

instance : Std.Refl KeepsName := ⟨fun _ _ h => h⟩

instance : IsTrans World KeepsName := ⟨fun _ _ _ h₁ h₂ n hn => h₂ n (h₁ n hn)⟩

theorem KeepsName.of_same {w w' : World} (h : Same World.volume w w') : KeepsName w w' := by
  intro n hn
  have hv : w'.volume = w.volume := h
  rw [hv]
  exact hn

/-! ## systemd -/

theorem isMounted_besideService (env : Env) (site : Site) :
    Within (Same World.besideService) (isMounted env site) := by
  intro w
  unfold isMounted Same
  cases w.service with
  | stopped => rfl
  | starting f => cases env.cameUp site <;> rfl
  | up f => rfl

theorem startService_besideService (w : World) :
    w.startService.besideService = w.besideService := by
  unfold World.startService
  split <;> rfl

theorem waitReady_besideService (env : Env) (cfg : Config) (st : Stage) :
    Within (Same World.besideService) (waitReady env cfg st) := by
  intro w
  unfold waitReady Same
  split <;> rfl

/-- `mount` touches only the service and its environment file. -/
theorem mount_besideService (env : Env) (cfg : Config) (st : Stage) (creds : Option Creds) :
    Within (Same World.besideService) (mount env cfg st creds) := by
  refine within_bind (within_call _ fun _ => rfl) fun _ => ?_
  refine within_bind (isMounted_besideService env _) fun up => ?_
  refine within_ite (fun _ => within_pure _) fun _ => ?_
  refine within_bind (within_call _ fun _ => rfl) fun _ => ?_
  refine within_bind (within_call _ fun _ => rfl) fun _ => ?_
  refine within_bind (within_call _ startService_besideService) fun _ => ?_
  exact waitReady_besideService env cfg st

/-- `umount` touches only the service. -/
theorem umount_besideService (env : Env) (st : Stage) :
    Within (Same World.besideService) (umount env st) := by
  refine within_bind (isMounted_besideService env _) fun up => ?_
  refine within_ite (fun _ => ?_) fun _ => ?_
  · refine within_bind ?_ fun _ => within_call _ fun _ => rfl
    exact within_tryExcept (within_call _ fun _ => rfl) fun _ => within_raise _
  · exact within_tryExcept (within_call _ fun _ => rfl) fun _ => within_pure _

theorem remount_besideService (env : Env) (cfg : Config) (st : Stage) (creds : Option Creds) :
    Within (Same World.besideService) (remount env cfg st creds) :=
  within_bind (umount_besideService env st) fun _ => mount_besideService env cfg st creds

/-! ## SQL -/

theorem execute_besideDb (env : Env) (site : Site) (f : BackendRow → BackendRow) :
    Within (Same World.besideDb) (execute env site f) := by
  intro w
  unfold execute Same
  split <;> rfl

theorem commit_besideDb (env : Env) (site : Site) :
    Within (Same World.besideDb) (commit env site) := by
  intro w
  unfold commit Same
  split
  · rfl
  · dsimp only
    split <;> rfl
  · dsimp only
    split <;> rfl

theorem setStateMessage_besideDb (env : Env) (n : Nat) (message : Option String) :
    Within (Same World.besideDb) (setStateMessage env n message) :=
  within_bind (execute_besideDb env _ _) fun _ => commit_besideDb env _

theorem setJuicefsVolumeName_besideDb (env : Env) (name : String) :
    Within (Same World.besideDb) (setJuicefsVolumeName env name) :=
  within_bind (execute_besideDb env _ _) fun _ => commit_besideDb env _

theorem recordSwitch_besideDb (env : Env) (req : ConfigureRequest) (volume : String) :
    Within (Same World.besideDb) (recordSwitch env req volume) :=
  within_bind (execute_besideDb env _ _) fun _ => commit_besideDb env _

/-! ## Installing and formatting -/

/-- Everything but the installed flag and the volume. -/
def World.besideSetup (w : World) := (w.db, w.files, w.buckets, w.service, w.envFile, w.log)

theorem ensureJuicefsInstalled_besideSetup (env : Env) :
    Within (Same World.besideSetup) (ensureJuicefsInstalled env) := by
  refine within_bind (within_reads _) fun _ => ?_
  exact within_ite (fun _ => within_pure _) fun _ => within_call _ fun _ => rfl

theorem ensureJuicefsInstalled_volume (env : Env) :
    Within (Same World.volume) (ensureJuicefsInstalled env) := by
  refine within_bind (within_reads _) fun _ => ?_
  exact within_ite (fun _ => within_pure _) fun _ => within_call _ fun _ => rfl

theorem juicefsFormat_besideVolume (env : Env) (site : Site) (name : String)
    (target : VolumeName → Format) :
    Within (Same World.besideVolume) (juicefsFormat env site name target) := by
  intro w
  unfold juicefsFormat
  split
  · exact call_rel _ rfl
  · split
    · exact call_rel _ rfl
    · rfl

/-- `juicefs format` never renames a formatted volume. -/
theorem juicefsFormat_keepsName (env : Env) (site : Site) (name : String)
    {target : VolumeName → Format} (ht : ∀ n, (target n).name = n) :
    Within KeepsName (juicefsFormat env site name target) := by
  intro w
  unfold juicefsFormat
  split
  · rename_i f hf
    refine call_rel _ ?_
    intro n hn
    rw [hf] at hn
    simp only [Option.map_some, Option.some.injEq] at hn ⊢
    split
    · rw [ht, hn]
    · exact hn
  · rename_i hf
    intro n hn
    rw [hf] at hn
    cases hn

theorem besideVolume_besideSetup {w w' : World} (h : Same World.besideVolume w w') :
    Same World.besideSetup w w' := by
  simp only [Same, World.besideVolume, World.besideSetup, Prod.mk.injEq] at h ⊢
  obtain ⟨hdb, -, hf, hb, hs, he, hl⟩ := h
  exact ⟨hdb, hf, hb, hs, he, hl⟩

theorem formatLocalVolume_besideSetup (env : Env) (cfg : Config) (name : String) :
    Within (Same World.besideSetup) (formatLocalVolume env cfg name) := by
  refine within_bind (ensureJuicefsInstalled_besideSetup env) fun _ => ?_
  refine within_bind (within_call _ fun _ => rfl) fun _ => ?_
  refine within_bind (within_call _ fun _ => rfl) fun _ => ?_
  exact (juicefsFormat_besideVolume env _ _ _).mono fun _ _ => besideVolume_besideSetup

theorem formatLocalVolume_keepsName (env : Env) (cfg : Config) (name : String) :
    Within KeepsName (formatLocalVolume env cfg name) := by
  refine within_bind ((ensureJuicefsInstalled_volume env).mono fun _ _ => .of_same) fun _ => ?_
  refine within_bind (within_call _ fun _ => refl_of KeepsName _) fun _ => ?_
  refine within_bind (within_call _ fun _ => refl_of KeepsName _) fun _ => ?_
  exact juicefsFormat_keepsName env _ _ fun _ => rfl

theorem ensureLocalVolumeFormatted_besideSetup (env : Env) (cfg : Config) (name : String) :
    Within (Same World.besideSetup) (ensureLocalVolumeFormatted env cfg name) := by
  refine within_bind (within_reads _) fun _ => ?_
  exact within_ite (fun _ => within_pure _) fun _ => formatLocalVolume_besideSetup env cfg _

theorem ensureLocalVolumeFormatted_keepsName (env : Env) (cfg : Config) (name : String) :
    Within KeepsName (ensureLocalVolumeFormatted env cfg name) := by
  refine within_bind (within_reads _) fun _ => ?_
  exact within_ite (fun _ => within_pure _) fun _ => formatLocalVolume_keepsName env cfg _

theorem formatS3Volume_besideSetup (env : Env) (store : S3Store) (name : String) :
    Within (Same World.besideSetup) (formatS3Volume env store name) := by
  refine within_bind (within_call _ fun _ => rfl) fun _ => ?_
  exact (juicefsFormat_besideVolume env _ _ _).mono fun _ _ => besideVolume_besideSetup

theorem formatS3Volume_keepsName (env : Env) (store : S3Store) (name : String) :
    Within KeepsName (formatS3Volume env store name) := by
  refine within_bind (within_call _ fun _ => refl_of KeepsName _) fun _ => ?_
  exact juicefsFormat_keepsName env _ _ fun _ => rfl

/-! ## Re-pointing and copying -/

theorem reconfigureVolumeStorage_besideVolume (env : Env) (st : Stage) (storage : Storage)
    (bucket : String) (creds : Option Creds) :
    Within (Same World.besideVolume) (reconfigureVolumeStorage env st storage bucket creds) := by
  intro w
  unfold reconfigureVolumeStorage
  split
  · exact call_rel _ rfl
  · rfl

/-- `juicefs config` never renames the volume. -/
theorem reconfigureVolumeStorage_name (env : Env) (st : Stage) (storage : Storage)
    (bucket : String) (creds : Option Creds) :
    Within (Same fun w => w.volume.map Format.name)
      (reconfigureVolumeStorage env st storage bucket creds) := by
  intro w
  unfold reconfigureVolumeStorage
  split
  · rename_i f hf
    refine call_rel _ ?_
    show Option.map Format.name (some (f.repoint storage bucket creds)) = w.volume.map Format.name
    rw [hf]
    rfl
  · rfl

theorem quiesceArchiveApps_same (env : Env) (req : ConfigureRequest) :
    Within (Same id) (quiesceArchiveApps env req) :=
  within_ite (fun _ => within_call _ fun _ => rfl) fun _ => within_pure _

/-! ## Reading the frames field by field -/

theorem besideService_fields {w w' : World} (h : Same World.besideService w w') :
    w'.db = w.db ∧ w'.volume = w.volume ∧ w'.files = w.files ∧ w'.buckets = w.buckets ∧
      w'.log = w.log := by
  obtain ⟨hdb, hv, -, hf, hb, hl⟩ := by simpa only [Same, World.besideService, Prod.mk.injEq] using h
  exact ⟨hdb, hv, hf, hb, hl⟩

theorem besideSetup_fields {w w' : World} (h : Same World.besideSetup w w') :
    w'.db = w.db ∧ w'.files = w.files ∧ w'.buckets = w.buckets ∧ w'.service = w.service ∧
      w'.log = w.log := by
  obtain ⟨hdb, hf, hb, hs, -, hl⟩ := by simpa only [Same, World.besideSetup, Prod.mk.injEq] using h
  exact ⟨hdb, hf, hb, hs, hl⟩

theorem besideVolume_fields {w w' : World} (h : Same World.besideVolume w w') :
    w'.db = w.db ∧ w'.files = w.files ∧ w'.buckets = w.buckets ∧ w'.service = w.service ∧
      w'.log = w.log := by
  obtain ⟨hdb, -, hf, hb, hs, -, hl⟩ := by simpa only [Same, World.besideVolume, Prod.mk.injEq] using h
  exact ⟨hdb, hf, hb, hs, hl⟩

theorem besideDb_fields {w w' : World} (h : Same World.besideDb w w') :
    w'.volume = w.volume ∧ w'.files = w.files ∧ w'.buckets = w.buckets ∧
      w'.service = w.service ∧ w'.log = w.log := by
  obtain ⟨hv, -, hf, hb, hs, -, hl⟩ := by simpa only [Same, World.besideDb, Prod.mk.injEq] using h
  exact ⟨hv, hf, hb, hs, hl⟩

end OpenHost.Archive
