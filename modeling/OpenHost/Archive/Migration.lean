import OpenHost.Archive.Reclaim

/-!
# Copy before delete

A migration copies the objects of the volume to the requested bucket, re-points the volume there,
records the switch, and then deletes the source objects.  The copy goes by the *picked* volume name,
the volume reads by the name it was *formatted* with.

Main definitions: `Source.object` (the objects of the source store), `Format.locate` (where a volume
reads an object), `CopiedBeforeReclaim` (nothing is deleted before everything was copied).
-/

namespace OpenHost.Archive

open OpenHost.Proc
open OpenHost.Text

/-! ## Objects of the source store and of the volume -/

/-- The key of the object `rel` of a volume. -/
def objectKey (volume rel : String) : String := volume ++ "/" ++ rel

/-- Where a volume reads the object `rel`. -/
def Format.locate (naming : S3Naming) (f : Format) (rel : String) : Loc :=
  match f.storage with
  | .file => .file (f.bucket ++ objectKey f.name.val rel)
  | .s3 => .key (naming.volumeBucket f.bucket) (objectKey f.name.val rel)

/-- The object `rel` of the volume `name` in the source store. -/
def Source.object (cfg : Config) (naming : S3Naming) (source : Source) (name rel : String)
    (w : World) : Option Blob :=
  match source with
  | .localDisk => w.object (.file (fileBucket cfg.localArchiveObjectStoreDir ++ objectKey name rel))
  | .s3 src => w.object (.key (naming.volumeBucket src.bucketUrl) (objectKey name rel))
  | .disabled => none

/-- The name the volume is formatted with, or will be when it is not yet. -/
def formattedName (w : World) (volume : String) : String :=
  match w.volume with
  | some f => f.name.val
  | none => volume

theorem formattedName_of_some {w : World} {volume : String} {f : Format} (h : w.volume = some f) :
    formattedName w volume = f.name.val := by
  simp only [formattedName, h]

theorem formattedName_of_none {w : World} {volume : String} (h : w.volume = none) :
    formattedName w volume = volume := by
  simp only [formattedName, h]

/-- The sync URL and the bucket URL that are built for a store denote the same bucket, and the sync
URL the keys under the volume's name. -/
def S3Naming.Agrees (naming : S3Naming) (store : S3Store) (volume : String) : Prop :=
  naming.syncLocation (store.syncUrl volume) =
    (naming.volumeBucket store.bucketUrl, volume ++ "/")

instance (naming : S3Naming) (store : S3Store) (volume : String) :
    Decidable (naming.Agrees store volume) :=
  inferInstanceAs (Decidable (_ = _))

/-! ## Names and keys -/

/-- A volume name starts with a letter or a digit. -/
theorem VolumeName.exists_head (n : VolumeName) :
    ∃ c cs, n.val.toList = c :: cs ∧ c ≠ '/' := by
  obtain ⟨name, h⟩ := n
  cases hl : name.toList with
  | nil => simp [validVolumeName, hl] at h
  | cons c cs =>
    refine ⟨c, cs, rfl, ?_⟩
    rintro rfl
    simp [validVolumeName, hl] at h

/-- A key of a volume that lies under `volume/` makes `volume` a relative path. -/
theorem not_startsWith_slash {n : VolumeName} {volume rel : String}
    (h : startsWith (objectKey n.val rel) (volume ++ "/") = true) :
    startsWith volume "/" = false := by
  obtain ⟨r, hr⟩ := startsWith_iff.mp h
  obtain ⟨c, cs, hc, hne⟩ := n.exists_head
  cases hs : startsWith volume "/" with
  | false => rfl
  | true =>
    obtain ⟨v, hv⟩ := startsWith_iff.mp hs
    have hlist := congrArg String.toList hr
    rw [hv] at hlist
    simp [objectKey, hc] at hlist
    exact absurd hlist.1 hne

/-- The files a local sync reads are those of the keys under the picked name. -/
theorem localSyncSource_append (cfg : Config) {volume : String}
    (h : startsWith volume "/" = false) (r : String) :
    localSyncSource cfg volume ++ r =
      fileBucket cfg.localArchiveObjectStoreDir ++ (volume ++ "/" ++ r) := by
  simp [localSyncSource, joinDir, h, String.append_assoc]

/-! ## What a completed copy leaves -/

section Copy

variable {d : Bucket} {dir key : String}

theorem copyFiles_of_startsWith {src : String} {w : World} {r : String} (hk : key = dir ++ r) :
    (w.copyFiles src (d, dir) fun _ => true).buckets d key =
      (w.files (src ++ r)).or (w.buckets d key) := by
  simp [World.copyFiles, hk, stripPrefix?_append]

theorem copyObjects_of_startsWith {src : Bucket × String} {w : World} {b : Bucket} {r : String}
    (hk : key = dir ++ r) :
    (w.copyObjects src (d, dir) fun _ => true).buckets b key =
      if b = d then (w.buckets src.1 (src.2 ++ r)).or (w.buckets b key) else w.buckets b key := by
  simp [World.copyObjects, hk, stripPrefix?_append]

theorem copyFiles_of_not_startsWith {src : String} {w : World}
    (hk : startsWith key dir = false) (b : Bucket) :
    (w.copyFiles src (d, dir) fun _ => true).buckets b key = w.buckets b key := by
  simp [World.copyFiles, stripPrefix?_of_not_startsWith hk]

theorem copyObjects_of_not_startsWith {src : Bucket × String} {w : World}
    (hk : startsWith key dir = false) (b : Bucket) :
    (w.copyObjects src (d, dir) fun _ => true).buckets b key = w.buckets b key := by
  simp [World.copyObjects, stripPrefix?_of_not_startsWith hk]

end Copy

/-! ## The steps of a migration that returned -/

theorem runSync_ok {env : Env} {copy : (String → Bool) → World → World} {w w' : World} {u : Unit}
    (h : runSync env copy w = (.ok u, w')) : w' = copy (fun _ => true) w := by
  unfold runSync at h
  split at h
  · exact (Prod.mk.inj h).2.symm
  · cases (Prod.mk.inj h).1
  · cases (Prod.mk.inj h).1

theorem reconfigureVolumeStorage_ok {env : Env} {st : Stage} {storage : Storage} {bucket : String}
    {creds : Option Creds} {w w' : World} {u : Unit}
    (h : reconfigureVolumeStorage env st storage bucket creds w = (.ok u, w')) :
    ∃ f, w.volume = some f ∧ w' = { w with volume := some (f.repoint storage bucket creds) } := by
  unfold reconfigureVolumeStorage at h
  split at h
  · rename_i f hf
    exact ⟨f, hf, (call_eq_ok_iff.mp h).2⟩
  · cases (Prod.mk.inj h).1

theorem juicefsFormat_ok {env : Env} {site : Site} {name : String} {target : VolumeName → Format}
    (ht : ∀ n, (target n).name = n) {w w' : World} {u : Unit}
    (h : juicefsFormat env site name target w = (.ok u, w')) :
    ∃ f, w'.volume = some f ∧ f.name.val = formattedName w name := by
  unfold juicefsFormat at h
  split at h
  · rename_i f hf
    rw [formattedName_of_some hf]
    obtain ⟨-, rfl⟩ := call_eq_ok_iff.mp h
    refine ⟨_, rfl, ?_⟩
    split
    · rw [ht]
    · rfl
  · rename_i hf
    rw [formattedName_of_none hf]
    split at h
    · rename_i hv
      obtain ⟨-, rfl⟩ := call_eq_ok_iff.mp h
      exact ⟨_, rfl, by rw [ht]⟩
    · cases (Prod.mk.inj h).1

/-- `_ensure_local_volume_formatted` leaves a volume under its own name, or the picked one. -/
theorem ensureLocalVolumeFormatted_ok {env : Env} {cfg : Config} {volume : String}
    (hv : volume ≠ "") {w w' : World} {u : Unit}
    (h : ensureLocalVolumeFormatted env cfg volume w = (.ok u, w')) :
    ∃ f, w'.volume = some f ∧ f.name.val = formattedName w volume := by
  obtain ⟨yes, w₁, hlook, hrest⟩ := bind_ok_iff.mp h
  obtain ⟨hyes, rfl⟩ := Prod.mk.inj hlook
  cases yes with
  | true =>
    obtain ⟨-, rfl⟩ := Prod.mk.inj hrest
    simp only [Outcome.ok.injEq, Bool.and_eq_true] at hyes
    obtain ⟨f, hf⟩ := Option.isSome_iff_exists.mp hyes.1
    exact ⟨f, hf, (formattedName_of_some hf).symm⟩
  | false =>
    rw [orElse_some_of_ne hv] at hrest
    simp only [Bool.false_eq_true, if_false, formatLocalVolume, bind_ok_iff] at hrest
    obtain ⟨_, wa, ha, _, wb, hb, _, wc, hc, hformat⟩ := hrest
    have hsame : wc.volume = w.volume := by
      rw [(call_eq_ok_iff.mp hc).2, (call_eq_ok_iff.mp hb).2]
      exact (ensureJuicefsInstalled_volume env).of_eq ha
    simpa only [formattedName, hsame] using juicefsFormat_ok (fun _ => rfl) hformat

/-- A picked name is never empty. -/
theorem pickVolumeName_ne_empty (state : BackendRow) (req : ConfigureRequest) {zoneName : String}
    (hz : zoneName ≠ "") : pickVolumeName state req zoneName ≠ "" := by
  have hexisting : orElse (some state.juicefsVolumeName) defaultVolumeName ≠ "" :=
    orElse_ne_empty _ (by decide)
  have hfresh : freshVolumeName req zoneName ≠ "" :=
    orElse_ne_empty _ (orElse_ne_empty _ hz)
  unfold pickVolumeName
  cases state.backend with
  | s3 => exact hexisting
  | disabled => exact hfresh
  | localDisk =>
    dsimp only
    split
    · exact hfresh
    · exact hexisting

theorem defaultVolumeNameForZone_ne_empty (sha256Hex : String → String) (zone : Option String) :
    defaultVolumeNameForZone sha256Hex zone ≠ "" :=
  orElse_ne_empty _ (by decide)

/-! ## A migration that returned -/

/-- What `bringOver` leaves when it returns: the files and the row are as before, the volume is
formatted under its name and reads from the requested bucket. -/
structure Repointed (req : ConfigureRequest) (volume : String) (w w' : World) : Prop where
  files : w'.files = w.files
  reads : ∃ f, w'.volume = some f ∧ f.name.val = formattedName w volume ∧ f.storage = .s3 ∧
    f.bucket = req.dest.bucketUrl

/-- The switch-over: re-point the volume, restart the mount.  The objects are not touched. -/
theorem switchOver_ok {env : Env} {cfg : Config} {dest : S3Store} {creds : Option Creds}
    {w w₁ w' : World} {u v : Unit}
    (hrepoint : reconfigureVolumeStorage env .switchOver .s3 dest.bucketUrl (some dest.creds) w =
      (.ok u, w₁))
    (hremount : remount env cfg .switchOver creds w₁ = (.ok v, w')) :
    w'.files = w.files ∧ w'.buckets = w.buckets ∧
      ∃ f, w.volume = some f ∧
        w'.volume = some (f.repoint .s3 dest.bucketUrl (some dest.creds)) := by
  obtain ⟨f, hf, rfl⟩ := reconfigureVolumeStorage_ok hrepoint
  obtain ⟨-, hvol, hfiles, hbuckets, -⟩ :=
    besideService_fields ((remount_besideService env cfg .switchOver creds).of_eq hremount)
  exact ⟨hfiles, hbuckets, f, hf, hvol⟩

theorem bringOver_local_ok {env : Env} {cfg : Config} {naming : S3Naming} {req : ConfigureRequest}
    {volume : String} (hv : volume ≠ "") {w w' : World} {u : Unit}
    (h : bringOver env cfg naming req volume .localDisk w = (.ok u, w')) :
    Repointed req volume w w' ∧
      w'.buckets = (w.copyFiles (localSyncSource cfg volume)
        (naming.syncLocation (req.dest.syncUrl volume)) fun _ => true).buckets := by
  simp only [bringOver, migrateLocalToS3, bind_ok_iff] at h
  obtain ⟨_, w₁, hinst, _, w₂, hfmt, _, w₃, hmount, _, w₄, hq, _, w₆, ⟨_, w₅, hsync, hrepoint⟩,
    hremount⟩ := h
  have hvol₁ : w₁.volume = w.volume := (ensureJuicefsInstalled_volume env).of_eq hinst
  obtain ⟨-, hf₁, hb₁, -, -⟩ :=
    besideSetup_fields ((ensureJuicefsInstalled_besideSetup env).of_eq hinst)
  obtain ⟨-, hf₂, hb₂, -, -⟩ :=
    besideSetup_fields ((ensureLocalVolumeFormatted_besideSetup env cfg volume).of_eq hfmt)
  obtain ⟨-, hvol₃, hf₃, hb₃, -⟩ :=
    besideService_fields ((mount_besideService env cfg .bringUp none).of_eq hmount)
  have h₄ : w₄ = w₃ := (quiesceArchiveApps_same env req).of_eq hq
  have h₅ := runSync_ok hsync
  obtain ⟨hf₆, hb₆, f, hf, hvol⟩ := switchOver_ok hrepoint hremount
  have hfiles₃ : w₃.files = w.files := by rw [hf₃, hf₂, hf₁]
  have hbuckets₃ : w₃.buckets = w.buckets := by rw [hb₃, hb₂, hb₁]
  obtain ⟨g, hg, hname⟩ := ensureLocalVolumeFormatted_ok hv hfmt
  have hgf : g = f := by
    rw [h₅, h₄] at hf
    exact Option.some.inj (hg.symm.trans (hvol₃.symm.trans hf))
  refine ⟨⟨?_, _, hvol, ?_, rfl, rfl⟩, ?_⟩
  · rw [hf₆, h₅, h₄]
    exact hfiles₃
  · show f.name.val = formattedName w volume
    rw [← hgf, hname, formattedName, hvol₁, formattedName]
  · rw [hb₆, h₅, h₄]
    simp only [World.copyFiles, hfiles₃, hbuckets₃]

theorem bringOver_s3_ok {env : Env} {cfg : Config} {naming : S3Naming} {req : ConfigureRequest}
    {volume : String} {src : S3Store} {w w' : World} {u : Unit}
    (h : bringOver env cfg naming req volume (.s3 src) w = (.ok u, w')) :
    Repointed req volume w w' ∧
      w'.buckets = (w.copyObjects (naming.syncLocation (src.syncUrl volume))
        (naming.syncLocation (req.dest.syncUrl volume)) fun _ => true).buckets := by
  simp only [bringOver, migrateS3ToS3, bind_ok_iff] at h
  obtain ⟨_, w₁, hinst, _, w₂, hmount, _, w₃, hq, _, w₅, ⟨_, w₄, hsync, hrepoint⟩, hremount⟩ := h
  have hvol₁ : w₁.volume = w.volume := (ensureJuicefsInstalled_volume env).of_eq hinst
  obtain ⟨-, hf₁, hb₁, -, -⟩ :=
    besideSetup_fields ((ensureJuicefsInstalled_besideSetup env).of_eq hinst)
  obtain ⟨-, hvol₂, hf₂, hb₂, -⟩ :=
    besideService_fields ((mount_besideService env cfg .bringUp (some src.creds)).of_eq hmount)
  have h₃ : w₃ = w₂ := (quiesceArchiveApps_same env req).of_eq hq
  have h₄ := runSync_ok hsync
  obtain ⟨hf₅, hb₅, f, hf, hvol⟩ := switchOver_ok hrepoint hremount
  have hfiles₂ : w₂.files = w.files := by rw [hf₂, hf₁]
  have hbuckets₂ : w₂.buckets = w.buckets := by rw [hb₂, hb₁]
  have hf' : w.volume = some f := by
    rw [h₄, h₃] at hf
    exact hvol₁.symm.trans (hvol₂.symm.trans hf)
  refine ⟨⟨?_, _, hvol, ?_, rfl, rfl⟩, ?_⟩
  · rw [hf₅, h₄, h₃]
    exact hfiles₂
  · exact (formattedName_of_some hf').symm
  · rw [hb₅, h₄, h₃]
    simp only [World.copyObjects, hbuckets₂]

/-- The handler of the `try` statement always raises, so a switch that returned ran its body. -/
theorem switchBackend_ok {env : Env} {cfg : Config} {naming : S3Naming} {req : ConfigureRequest}
    {volume : String} {source : Source} {w w' : World} {u : Unit}
    (h : switchBackend env cfg naming req volume source w = (.ok u, w')) :
    ∃ w₁, bringOver env cfg naming req volume source w = (.ok (), w₁) ∧
      recordSwitch env req volume w₁ = (.ok u, w') := by
  rcases tryExcept_ok_iff.mp h with hbody | ⟨e, w₁, -, -, hhandler⟩
  · obtain ⟨_, w₁, hbring, hrecord⟩ := bind_ok_iff.mp hbody
    exact ⟨w₁, hbring, hrecord⟩
  · obtain ⟨_, w₂, -, hraise⟩ := bind_ok_iff.mp hhandler
    cases (Prod.mk.inj hraise).1

/-! ## Where the objects are when the reclaim starts -/

/-- The name `configure_backend` picks in the world `w`. -/
def pickedName (env : Env) (req : ConfigureRequest) (w : World) : String :=
  pickVolumeName (readState w.db.view) req (zoneVolumeName env)

theorem pickedName_ne_empty (env : Env) (req : ConfigureRequest) (w : World) :
    pickedName env req w ≠ "" :=
  pickVolumeName_ne_empty _ _ (defaultVolumeNameForZone_ne_empty _ _)

/-- The object `rel` of the volume `name` in the requested bucket. -/
def S3Naming.destination (naming : S3Naming) (req : ConfigureRequest) (name rel : String) : Loc :=
  .key (naming.volumeBucket req.dest.bucketUrl) (objectKey name rel)

/-- What a copy under the name `volume` makes of the destination of an object. -/
def copied (volume key : String) (source dest : Option Blob) : Option Blob :=
  if startsWith key (volume ++ "/") = true then source.or dest else dest

theorem copied_eq_some_iff {volume key : String} {blob : Blob} {dest : Option Blob} :
    copied volume key (some blob) dest = some blob ↔
      startsWith key (volume ++ "/") = true ∨ dest = some blob := by
  unfold copied
  split <;> simp_all

/-- After a local copy, the requested bucket has the files whose keys lie under the picked name. -/
theorem copyFiles_destination {cfg : Config} {naming : S3Naming} {req : ConfigureRequest}
    {volume : String} (hdest : naming.Agrees req.dest volume) (n : VolumeName) (rel : String)
    (w : World) :
    (w.copyFiles (localSyncSource cfg volume) (naming.syncLocation (req.dest.syncUrl volume))
        fun _ => true).buckets (naming.volumeBucket req.dest.bucketUrl) (objectKey n.val rel) =
      copied volume (objectKey n.val rel) (Source.object cfg naming .localDisk n.val rel w)
        (w.object (naming.destination req n.val rel)) := by
  rw [hdest]
  cases hs : startsWith (objectKey n.val rel) (volume ++ "/") with
  | false =>
    simp only [copied, hs, Bool.false_eq_true, if_false]
    exact copyFiles_of_not_startsWith hs _
  | true =>
    obtain ⟨r, hr⟩ := startsWith_iff.mp hs
    have hpath := localSyncSource_append cfg (not_startsWith_slash hs) r
    simp only [copied, hs, if_true]
    refine (copyFiles_of_startsWith hr).trans ?_
    simp only [hpath, ← hr]
    rfl

/-- The same for a copy between buckets. -/
theorem copyObjects_destination {cfg : Config} {naming : S3Naming} {req : ConfigureRequest}
    {volume : String} {src : S3Store} (hdest : naming.Agrees req.dest volume)
    (hsrc : naming.Agrees src volume) (name rel : String) (w : World) :
    (w.copyObjects (naming.syncLocation (src.syncUrl volume))
        (naming.syncLocation (req.dest.syncUrl volume)) fun _ => true).buckets
          (naming.volumeBucket req.dest.bucketUrl) (objectKey name rel) =
      copied volume (objectKey name rel) (Source.object cfg naming (.s3 src) name rel w)
        (w.object (naming.destination req name rel)) := by
  rw [hdest, hsrc]
  cases hs : startsWith (objectKey name rel) (volume ++ "/") with
  | false =>
    simp only [copied, hs, Bool.false_eq_true, if_false]
    exact copyObjects_of_not_startsWith hs _
  | true =>
    obtain ⟨r, hr⟩ := startsWith_iff.mp hs
    simp only [copied, hs, if_true]
    refine (copyObjects_of_startsWith hr).trans ?_
    simp only [if_true, ← hr]
    rfl

/-- A copy between buckets leaves every object of the source bucket as it was. -/
theorem copyObjects_source {naming : S3Naming} {req : ConfigureRequest} {volume : String}
    {src : S3Store} (hdest : naming.Agrees req.dest volume) (hsrc : naming.Agrees src volume)
    (w : World) (key : String) :
    (w.copyObjects (naming.syncLocation (src.syncUrl volume))
        (naming.syncLocation (req.dest.syncUrl volume)) fun _ => true).buckets
          (naming.volumeBucket src.bucketUrl) key =
      w.buckets (naming.volumeBucket src.bucketUrl) key := by
  rw [hdest, hsrc]
  cases hs : startsWith key (volume ++ "/") with
  | false => exact copyObjects_of_not_startsWith hs _
  | true =>
    obtain ⟨r, hr⟩ := startsWith_iff.mp hs
    refine (copyObjects_of_startsWith hr).trans ?_
    simp only [← hr, Option.or_self, ite_self]

/-- The world in which the reclaim starts: the source objects are still there, and the destination
has those whose keys lie under the picked name. -/
structure Switched (cfg : Config) (naming : S3Naming) (req : ConfigureRequest) (volume : String)
    (source : Source) (w w' : World) : Prop where
  reads : ∃ f, w'.volume = some f ∧ f.name.val = formattedName w volume ∧ f.storage = .s3 ∧
    f.bucket = req.dest.bucketUrl
  source_object : ∀ rel, source.object cfg naming (formattedName w volume) rel w' =
    source.object cfg naming (formattedName w volume) rel w
  destination : ∀ rel, w'.object (naming.destination req (formattedName w volume) rel) =
    copied volume (objectKey (formattedName w volume) rel)
      (source.object cfg naming (formattedName w volume) rel w)
      (w.object (naming.destination req (formattedName w volume) rel))

theorem switchBackend_switched {env : Env} {cfg : Config} {naming : S3Naming}
    {req : ConfigureRequest} {volume : String} {source : Source} (hv : volume ≠ "")
    (hdis : source ≠ .disabled) (hdest : naming.Agrees req.dest volume)
    (hsrc : ∀ src, source = .s3 src → naming.Agrees src volume) {w w' : World} {u : Unit}
    (h : switchBackend env cfg naming req volume source w = (.ok u, w')) :
    Switched cfg naming req volume source w w' := by
  obtain ⟨w₁, hbring, hrecord⟩ := switchBackend_ok h
  obtain ⟨hvol, hfiles, hbuckets, -, -⟩ :=
    besideDb_fields ((recordSwitch_besideDb env req volume).of_eq hrecord)
  cases source with
  | disabled => exact absurd rfl hdis
  | localDisk =>
    obtain ⟨hrep, hcopy⟩ := bringOver_local_ok hv hbring
    obtain ⟨f, hf, hname, hst, hb⟩ := hrep.reads
    refine ⟨⟨f, hvol.trans hf, hname, hst, hb⟩, fun rel => ?_, fun rel => ?_⟩
    · simp only [Source.object, World.object, hfiles, hrep.files]
    · rw [← hname, ← copyFiles_destination hdest f.name rel w, ← hcopy, ← hbuckets]
      rfl
  | s3 src =>
    obtain ⟨hrep, hcopy⟩ := bringOver_s3_ok hbring
    obtain ⟨f, hf, hname, hst, hb⟩ := hrep.reads
    have hagree := hsrc src rfl
    refine ⟨⟨f, hvol.trans hf, hname, hst, hb⟩, fun rel => ?_, fun rel => ?_⟩
    · simp only [Source.object, World.object, hbuckets, hcopy]
      exact copyObjects_source hdest hagree w _
    · rw [← copyObjects_destination hdest hagree, ← hcopy, ← hbuckets]
      rfl

/-! ## Copy before delete -/

/-- The world in which the reclaim of the source objects starts. -/
def beforeReclaim (env : Env) (cfg : Config) (naming : S3Naming) (req : ConfigureRequest)
    (source : Source) (w : World) : World :=
  (switchBackend env cfg naming req (pickedName env req w) source w).2

/-- Between `w₁` and `w₂` some source object of the volume `name` is deleted. -/
def SomeDeleted (cfg : Config) (naming : S3Naming) (source : Source) (name : String)
    (w₁ w₂ : World) : Prop :=
  ∃ rel, (source.object cfg naming name rel w₁).isSome ∧
    source.object cfg naming name rel w₂ = none

/-- If a call from `w`, whose reclaim starts in `w₁` and ends in `w₂`, deletes any source object of
the volume `name`, then in `w₁` the volume reads the requested bucket and has every object there. -/
def CopiedBeforeReclaim (cfg : Config) (naming : S3Naming) (req : ConfigureRequest)
    (source : Source) (name : String) (w w₁ w₂ : World) : Prop :=
  SomeDeleted cfg naming source name w₁ w₂ →
    ∃ f, w₁.volume = some f ∧ f.name.val = name ∧ f.bucket = req.dest.bucketUrl ∧
      ∀ rel blob, source.object cfg naming name rel w = some blob →
        w₁.object (f.locate naming rel) = some blob

/-- Every object of the volume `name` has a key under `volume/`, or is at its destination anyway. -/
def KeyedUnder (cfg : Config) (naming : S3Naming) (req : ConfigureRequest) (source : Source)
    (volume name : String) (w : World) : Prop :=
  ∀ rel blob, source.object cfg naming name rel w = some blob →
    startsWith (objectKey name rel) (volume ++ "/") = true ∨
      w.object (naming.destination req name rel) = some blob

/-- Objects are keyed under the picked name when the volume is formatted with it. -/
theorem keyedUnder_of_name_eq {cfg : Config} {naming : S3Naming} {req : ConfigureRequest}
    {source : Source} {volume name : String} {w : World} (h : volume = name) :
    KeyedUnder cfg naming req source volume name w :=
  fun rel _ _ => .inl (startsWith_iff.mpr ⟨rel, by rw [h, objectKey]⟩)

/-- A call that is not refused switches and then reclaims. -/
theorem configureBackend_apply {env : Env} {cfg : Config} {naming : S3Naming}
    {req : ConfigureRequest} {source : Source} {w : World}
    (hsource : sourceOf (readState w.db.view) = .ok source) :
    configureBackend env cfg naming req w =
      (do
        switchBackend env cfg naming req (pickedName env req w) source
        reclaimSource env cfg naming (readState w.db.view) req (pickedName env req w) source) w := by
  unfold configureBackend
  rw [bind_apply, reads_apply]
  dsimp only
  rw [hsource]
  rfl

/-- A refused call has done nothing. -/
theorem configureBackend_refused {env : Env} {cfg : Config} {naming : S3Naming}
    {req : ConfigureRequest} {w : World} {e : PyError}
    (hsource : sourceOf (readState w.db.view) = .error e) :
    configureBackend env cfg naming req w = (.raised e, w) := by
  rw [configureBackend, bind_apply, reads_apply]
  dsimp only
  rw [hsource]
  rfl

/-- What a call that returned ran: the switch, and then the reclaim. -/
theorem configureBackend_ok {env : Env} {cfg : Config} {naming : S3Naming} {req : ConfigureRequest}
    {source : Source} {w w₂ : World} (hsource : sourceOf (readState w.db.view) = .ok source)
    (h : configureBackend env cfg naming req w = (.ok (), w₂)) :
    switchBackend env cfg naming req (pickedName env req w) source w =
        (.ok (), beforeReclaim env cfg naming req source w) ∧
      w₂ = (reclaimSource env cfg naming (readState w.db.view) req (pickedName env req w) source
        (beforeReclaim env cfg naming req source w)).2 := by
  rw [configureBackend_apply hsource] at h
  obtain ⟨_, w₁, hswitch, hreclaim⟩ := bind_ok_iff.mp h
  have hw₁ : w₁ = beforeReclaim env cfg naming req source w := by
    rw [beforeReclaim, hswitch]
  rw [← hw₁]
  exact ⟨hswitch, by rw [hreclaim]⟩

/-- Deletion by the reclaim is decided before the switch. -/
theorem someDeleted_iff {env : Env} {cfg : Config} {naming : S3Naming} {state : BackendRow}
    {req : ConfigureRequest} {volume name : String} {source : Source} {w w₁ : World}
    (hobj : ∀ rel, source.object cfg naming name rel w₁ = source.object cfg naming name rel w) :
    SomeDeleted cfg naming source name w₁
        (reclaimSource env cfg naming state req volume source w₁).2 ↔
      SomeDeleted cfg naming source name w
        (reclaimSource env cfg naming state req volume source w).2 := by
  have herase := erases_reclaimSource env cfg naming state req volume source
  unfold SomeDeleted
  refine exists_congr fun rel => ?_
  cases source with
  | disabled => simp [Source.object]
  | localDisk =>
    simp only [Source.object] at hobj ⊢
    exact herase.gone_iff (hobj rel)
  | s3 src =>
    simp only [Source.object] at hobj ⊢
    exact herase.gone_iff (hobj rel)

/-- A call that returns has copied everything before it deleted anything exactly when the objects
are keyed under the name it picked, unless it deletes nothing. -/
theorem configureBackend_copiedBeforeReclaim_iff {env : Env} {cfg : Config} {naming : S3Naming}
    {req : ConfigureRequest} {source : Source} {w w₂ : World}
    (hsource : sourceOf (readState w.db.view) = .ok source)
    (hreturns : configureBackend env cfg naming req w = (.ok (), w₂))
    (hdest : naming.Agrees req.dest (pickedName env req w))
    (hsrc : ∀ src, source = .s3 src → naming.Agrees src (pickedName env req w)) :
    CopiedBeforeReclaim cfg naming req source (formattedName w (pickedName env req w)) w
        (beforeReclaim env cfg naming req source w) w₂ ↔
      (SomeDeleted cfg naming source (formattedName w (pickedName env req w)) w
          (reclaimSource env cfg naming (readState w.db.view) req (pickedName env req w) source
            w).2 →
        KeyedUnder cfg naming req source (pickedName env req w)
          (formattedName w (pickedName env req w)) w) := by
  obtain ⟨hswitch, hw₂⟩ := configureBackend_ok hsource hreturns
  by_cases hdis : source = .disabled
  · subst hdis
    simp [CopiedBeforeReclaim, SomeDeleted, KeyedUnder, Source.object]
  have hsw := switchBackend_switched (pickedName_ne_empty env req w) hdis hdest hsrc hswitch
  obtain ⟨f, hf, hname, hst, hb⟩ := hsw.reads
  have hlocate (rel : String) :
      f.locate naming rel =
        naming.destination req (formattedName w (pickedName env req w)) rel := by
    rw [Format.locate, hst, hname, hb, S3Naming.destination]
  unfold CopiedBeforeReclaim
  rw [hw₂, someDeleted_iff hsw.source_object]
  refine imp_congr_right fun _ => ?_
  constructor
  · rintro ⟨g, hg, -, -, hread⟩ rel blob hobj
    cases Option.some.inj (hf.symm.trans hg)
    have hdst := hread rel blob hobj
    rw [hlocate, hsw.destination, hobj] at hdst
    exact copied_eq_some_iff.mp hdst
  · intro hkeyed
    refine ⟨f, hf, hname, hb, fun rel blob hobj => ?_⟩
    rw [hlocate, hsw.destination, hobj]
    exact copied_eq_some_iff.mpr (hkeyed rel blob hobj)

/-! ### A volume under the historical name

A zone whose volume was formatted as `openhost` moves to S3 and asks for a name of its own. -/

/-- Paths of the zone. -/
def legacyConfig : Config := { appArchiveDir := "/archive", localArchiveObjectStoreDir := "/store" }

/-- Its volume, and one object in the local store. -/
def legacyWorld : World where
  db := { committed := some (readState none), pending := none }
  volume := some (localFormat legacyConfig ⟨"openhost", by decide⟩)
  juicefsInstalled := true
  files path := if path = "/store/openhost/chunks/0" then some [1] else none
  buckets _ _ := none
  service := .up (localFormat legacyConfig ⟨"openhost", by decide⟩)
  envFile := some none
  log := []

/-- A request for the bucket `b` with this volume name. -/
def requestNamed (name : String) : ConfigureRequest where
  dest := { bucket := "b", region := some "us-east-1", endpoint := none, creds := ("id", "secret") }
  s3Prefix := none
  juicefsVolumeName := some name
  quiesce := true

/-- The call deletes the only copy of the object. -/
theorem legacy_volume_not_copiedBeforeReclaim :
    let req := requestNamed "my-archive"
    let w₁ := beforeReclaim .calm legacyConfig .virtualHosted req .localDisk legacyWorld
    let run := configureBackend .calm legacyConfig .virtualHosted req legacyWorld
    S3Naming.virtualHosted.Agrees req.dest "my-archive" ∧
      run.1 = .ok () ∧
      ¬CopiedBeforeReclaim legacyConfig .virtualHosted req .localDisk "openhost" legacyWorld w₁
        run.2 := by
  refine ⟨by decide, by decide, fun hcopied => ?_⟩
  obtain ⟨f, hf, -, -, hread⟩ := hcopied ⟨"chunks/0", by decide, by decide⟩
  have hobject := hread "chunks/0" [1] (by decide +kernel)
  cases Option.some.inj hf
  exact absurd hobject (by decide +kernel)

/-- Under the name it has, the same zone loses nothing. -/
theorem legacy_volume_same_name_copiedBeforeReclaim :
    let req := requestNamed "openhost"
    CopiedBeforeReclaim legacyConfig .virtualHosted req .localDisk "openhost" legacyWorld
      (beforeReclaim .calm legacyConfig .virtualHosted req .localDisk legacyWorld)
      (configureBackend .calm legacyConfig .virtualHosted req legacyWorld).2 := by
  have hsource : sourceOf (readState legacyWorld.db.view) = .ok .localDisk := rfl
  exact (configureBackend_copiedBeforeReclaim_iff hsource (Prod.ext (by decide +kernel) rfl) (by decide)
    (by simp)).mpr fun _ => keyedUnder_of_name_eq (by decide +kernel)

end OpenHost.Archive
