import OpenHost.Archive.Frames

/-!
# The reclaim of the source objects

After the switch is committed, `configure_backend` deletes the source objects: the local object
store by `rmtree`, or an S3 prefix by batches of `delete_objects`.  Which objects go is decided by
the outside world (what a listing shows, which batch fails) and by nothing in the stores themselves.
`Erases` says so, and is closed under the constructs the cleaners are written with.
-/

namespace OpenHost.Archive

open OpenHost.Proc
open OpenHost.Text

/-! ## Object locations -/

/-- The place of one object. -/
inductive Loc where
  | file (path : String)
  | key (bucket : Bucket) (key : String)
  deriving DecidableEq, Repr

/-- The object at a place. -/
def World.object (w : World) : Loc → Option Blob
  | .file path => w.files path
  | .key bucket key => w.buckets bucket key

/-- Same stores, same objects. -/
theorem object_of_stores {w w' : World} (hf : w'.files = w.files) (hb : w'.buckets = w.buckets)
    (l : Loc) : w'.object l = w.object l := by
  cases l with
  | file path => simp only [World.object, hf]
  | key bucket key => simp only [World.object, hb]

/-! ## Erasing a fixed selection -/

/-- `x` ends the same way from every world and removes the same selection of objects. -/
def Erases {α : Type} (x : ArchiveProc α) : Prop :=
  ∃ (o : Outcome PyError α) (gone : Loc → Bool), ∀ w,
    (x w).1 = o ∧ ∀ l, (x w).2.object l = if gone l = true then none else w.object l

section Rules

variable {α β : Type}

/-- What leaves the stores alone erases nothing. -/
theorem Erases.of_stores {x : ArchiveProc α} (o : Outcome PyError α) (ho : ∀ w, (x w).1 = o)
    (hs : ∀ w, (x w).2.files = w.files ∧ (x w).2.buckets = w.buckets) : Erases x := by
  refine ⟨o, fun _ => false, fun w => ⟨ho w, fun l => ?_⟩⟩
  simpa using object_of_stores (hs w).1 (hs w).2 l

theorem erases_pure (a : α) : Erases (pure a) :=
  .of_stores (.ok a) (fun _ => rfl) fun _ => ⟨rfl, rfl⟩

theorem erases_logMessage (text : String) : Erases (logMessage text) :=
  .of_stores (.ok ()) (fun _ => rfl) fun _ => ⟨rfl, rfl⟩

/-- An external call whose effect erases a selection. -/
theorem erases_external (env : Env) (site : Site) {eff : World → World} {gone : Loc → Bool}
    (h : ∀ w l, (eff w).object l = if gone l = true then none else w.object l) :
    Erases (external env site eff) := by
  unfold external
  cases env.reply site with
  | ok => exact ⟨.ok (), gone, fun w => ⟨rfl, h w⟩⟩
  | raises e applied =>
    cases applied
    · exact ⟨.raised e, fun _ => false, fun w => ⟨rfl, fun l => by simp⟩⟩
    · exact ⟨.raised e, gone, fun w => ⟨rfl, h w⟩⟩
  | dies applied =>
    cases applied
    · exact ⟨.killed, fun _ => false, fun w => ⟨rfl, fun l => by simp [call]⟩⟩
    · exact ⟨.killed, gone, fun w => ⟨rfl, h w⟩⟩

theorem erases_external_id (env : Env) (site : Site) : Erases (external env site id) := by
  have hid (w : World) (l : Loc) :
      (id w : World).object l = if (fun _ : Loc => false) l = true then none else w.object l := by
    simp
  exact erases_external env site hid

/-- Two selections erased one after the other. -/
theorem erased_twice {w₀ w₁ w₂ : World} {gone₁ gone₂ : Loc → Bool}
    (h₁ : ∀ l, w₁.object l = if gone₁ l = true then none else w₀.object l)
    (h₂ : ∀ l, w₂.object l = if gone₂ l = true then none else w₁.object l) (l : Loc) :
    w₂.object l = if (gone₁ l || gone₂ l) = true then none else w₀.object l := by
  rw [h₂, h₁]
  cases gone₁ l <;> cases gone₂ l <;> rfl

theorem erases_bind {x : ArchiveProc α} {f : α → ArchiveProc β} (hx : Erases x)
    (hf : ∀ a, Erases (f a)) : Erases (x >>= f) := by
  obtain ⟨o, gone, hx⟩ := hx
  have hrun (w : World) : x w = (o, (x w).2) := Prod.ext (hx w).1 rfl
  cases o with
  | ok a =>
    obtain ⟨o', gone', hf⟩ := hf a
    refine ⟨o', fun l => gone l || gone' l, fun w => ?_⟩
    rw [bind_apply, hrun w]
    exact ⟨(hf _).1, erased_twice (hx w).2 (hf _).2⟩
  | raised e =>
    refine ⟨.raised e, gone, fun w => ?_⟩
    rw [bind_apply, hrun w]
    exact ⟨rfl, (hx w).2⟩
  | killed =>
    refine ⟨.killed, gone, fun w => ?_⟩
    rw [bind_apply, hrun w]
    exact ⟨rfl, (hx w).2⟩

theorem erases_tryExcept {x : ArchiveProc α} {handles : PyError → Bool}
    {h : PyError → ArchiveProc α} (hx : Erases x) (hh : ∀ e, Erases (h e)) :
    Erases (tryExcept x handles h) := by
  obtain ⟨o, gone, hx⟩ := hx
  have hrun (w : World) : x w = (o, (x w).2) := Prod.ext (hx w).1 rfl
  cases o with
  | ok a =>
    refine ⟨.ok a, gone, fun w => ?_⟩
    rw [tryExcept, hrun w]
    exact ⟨rfl, (hx w).2⟩
  | raised e =>
    by_cases he : handles e = true
    · obtain ⟨o', gone', hh⟩ := hh e
      refine ⟨o', fun l => gone l || gone' l, fun w => ?_⟩
      rw [tryExcept, hrun w]
      simp only [he, if_true]
      exact ⟨(hh _).1, erased_twice (hx w).2 (hh _).2⟩
    · refine ⟨.raised e, gone, fun w => ?_⟩
      rw [tryExcept, hrun w]
      simp only [he]
      exact ⟨rfl, (hx w).2⟩
  | killed =>
    refine ⟨.killed, gone, fun w => ?_⟩
    rw [tryExcept, hrun w]
    exact ⟨rfl, (hx w).2⟩

end Rules

/-- A selection that one run of an erasing procedure removes, every run removes. -/
theorem Erases.gone_iff {α : Type} {x : ArchiveProc α} (hx : Erases x) {w w' : World} {l : Loc}
    (hl : w'.object l = w.object l) :
    ((w'.object l).isSome ∧ (x w').2.object l = none) ↔
      ((w.object l).isSome ∧ (x w).2.object l = none) := by
  obtain ⟨o, gone, hx⟩ := hx
  rw [(hx w').2 l, (hx w).2 l, hl]

/-! ## The cleaners -/

theorem removeFiles_object (dir : String) (sel : String → Bool) (w : World) (l : Loc) :
    (w.removeFiles dir sel).object l =
      if (match l with | .file path => startsWith path dir && sel path | .key _ _ => false) = true
      then none else w.object l := by
  cases l with
  | file path => simp only [World.object, World.removeFiles, Bool.and_eq_true]
  | key bucket key => simp [World.object, World.removeFiles]

theorem removeKeys_object (bucket : Bucket) (keys : List String) (w : World) (l : Loc) :
    (w.removeKeys bucket keys).object l =
      if (match l with | .file _ => false | .key b k => decide (b = bucket ∧ k ∈ keys)) = true
      then none else w.object l := by
  cases l with
  | file path => simp [World.object, World.removeKeys]
  | key b k => simp only [World.object, World.removeKeys, decide_eq_true_eq]

theorem erases_rmtree (env : Env) (dir : String) : Erases (rmtree env dir) := by
  unfold rmtree
  cases env.reply .rmtree with
  | ok => exact ⟨.ok (), _, fun w => ⟨rfl, removeFiles_object dir _ w⟩⟩
  | raises e applied => exact ⟨.raised e, _, fun w => ⟨rfl, removeFiles_object dir _ w⟩⟩
  | dies applied => exact ⟨.killed, _, fun w => ⟨rfl, removeFiles_object dir _ w⟩⟩

theorem erases_removeLocalObjectStore (env : Env) (cfg : Config) :
    Erases (removeLocalObjectStore env cfg) := by
  unfold removeLocalObjectStore
  split
  · exact erases_pure ()
  · refine erases_tryExcept ?_ fun _ => erases_logMessage _
    exact erases_bind (erases_rmtree env _) fun _ => erases_external_id env _

theorem erases_deleteObjects (env : Env) (bucket : Bucket) (n : Nat) (keys : List String) :
    Erases (deleteObjects env bucket n keys) :=
  erases_external env _ (removeKeys_object bucket keys)

theorem erases_deletePage (env : Env) (bucket : Bucket) (listPrefix : String)
    (keys toDelete : List String) (n : Nat) :
    Erases (deletePage env bucket listPrefix keys toDelete n) := by
  induction keys generalizing toDelete n with
  | nil => exact erases_pure _
  | cons key keys ih =>
    unfold deletePage
    split
    · split
      · exact erases_bind (erases_deleteObjects env bucket n _) fun _ => ih _ _
      · exact ih _ _
    · exact ih _ _

theorem erases_deletePages (env : Env) (bucket : Bucket) (listPrefix : String)
    (pages : List (List String)) (p : Nat) (toDelete : List String) (n : Nat) :
    Erases (deletePages env bucket listPrefix pages p toDelete n) := by
  induction pages generalizing p toDelete n with
  | nil =>
    unfold deletePages
    split
    · exact erases_pure _
    · exact erases_deleteObjects env bucket n toDelete
  | cons page pages ih =>
    unfold deletePages
    refine erases_bind (erases_external_id env _) fun _ => ?_
    exact erases_bind (erases_deletePage env bucket listPrefix page toDelete n) fun r => ih _ _ _

theorem erases_removeS3ObjectPrefix (env : Env) (naming : S3Naming) (src : S3Store)
    (volume : String) : Erases (removeS3ObjectPrefix env naming src volume) := by
  unfold removeS3ObjectPrefix
  split
  · exact erases_logMessage _
  · refine erases_tryExcept ?_ fun _ => erases_logMessage _
    exact erases_bind (erases_external_id env _) fun _ => erases_deletePages env _ _ _ _ _ _

/-- The whole reclaim erases a selection the stores have no say in. -/
theorem erases_reclaimSource (env : Env) (cfg : Config) (naming : S3Naming) (state : BackendRow)
    (req : ConfigureRequest) (volume : String) (source : Source) :
    Erases (reclaimSource env cfg naming state req volume source) := by
  unfold reclaimSource
  cases source with
  | localDisk => exact erases_removeLocalObjectStore env cfg
  | disabled => exact erases_pure ()
  | s3 src =>
    dsimp only
    split
    · exact erases_removeS3ObjectPrefix env naming src volume
    · exact erases_pure ()

/-! ## The reclaim leaves the row and the volume alone -/

/-- The row and the volume. -/
def World.identity (w : World) := (w.db, w.volume)

theorem deletePage_identity (env : Env) (bucket : Bucket) (listPrefix : String)
    (keys toDelete : List String) (n : Nat) :
    Within (Same World.identity) (deletePage env bucket listPrefix keys toDelete n) := by
  induction keys generalizing toDelete n with
  | nil => exact within_pure _
  | cons key keys ih =>
    unfold deletePage
    split
    · split
      · exact within_bind (within_call _ fun _ => rfl) fun _ => ih _ _
      · exact ih _ _
    · exact ih _ _

theorem deletePages_identity (env : Env) (bucket : Bucket) (listPrefix : String)
    (pages : List (List String)) (p : Nat) (toDelete : List String) (n : Nat) :
    Within (Same World.identity) (deletePages env bucket listPrefix pages p toDelete n) := by
  induction pages generalizing p toDelete n with
  | nil =>
    unfold deletePages
    split
    · exact within_pure _
    · exact within_call _ fun _ => rfl
  | cons page pages ih =>
    unfold deletePages
    refine within_bind (within_call _ fun _ => rfl) fun _ => ?_
    exact within_bind (deletePage_identity env bucket listPrefix page toDelete n) fun r => ih _ _ _

theorem rmtree_identity (env : Env) (dir : String) :
    Within (Same World.identity) (rmtree env dir) := by
  intro w
  unfold rmtree Same
  split <;> rfl

theorem reclaimSource_identity (env : Env) (cfg : Config) (naming : S3Naming)
    (state : BackendRow) (req : ConfigureRequest) (volume : String) (source : Source) :
    Within (Same World.identity) (reclaimSource env cfg naming state req volume source) := by
  have hlog (text : String) : Within (Same World.identity) (logMessage text) :=
    within_modify fun _ => rfl
  unfold reclaimSource
  cases source with
  | localDisk =>
    refine within_ite (fun _ => within_pure _) fun _ => ?_
    refine within_tryExcept ?_ fun _ => hlog _
    exact within_bind (rmtree_identity env _) fun _ => within_call _ fun _ => rfl
  | disabled => exact within_pure ()
  | s3 src =>
    refine within_ite (fun _ => ?_) fun _ => within_pure _
    refine within_ite (fun _ => hlog _) fun _ => ?_
    refine within_tryExcept ?_ fun _ => hlog _
    exact within_bind (within_call _ fun _ => rfl) fun _ => deletePages_identity env _ _ _ _ _ _

/-! ## The reclaim never fails the call -/

theorem neverRaises_logMessage (text : String) : NeverRaises (logMessage text) :=
  neverRaises_modify _

theorem neverRaises_removeLocalObjectStore (env : Env) (cfg : Config) :
    NeverRaises (removeLocalObjectStore env cfg) := by
  unfold removeLocalObjectStore
  split
  · exact neverRaises_pure ()
  · exact neverRaises_tryExcept (fun _ => rfl) fun _ => neverRaises_logMessage _

theorem neverRaises_removeS3ObjectPrefix (env : Env) (naming : S3Naming) (src : S3Store)
    (volume : String) : NeverRaises (removeS3ObjectPrefix env naming src volume) := by
  unfold removeS3ObjectPrefix
  split
  · exact neverRaises_logMessage _
  · exact neverRaises_tryExcept (fun _ => rfl) fun _ => neverRaises_logMessage _

theorem neverRaises_reclaimSource (env : Env) (cfg : Config) (naming : S3Naming)
    (state : BackendRow) (req : ConfigureRequest) (volume : String) (source : Source) :
    NeverRaises (reclaimSource env cfg naming state req volume source) := by
  unfold reclaimSource
  cases source with
  | localDisk => exact neverRaises_removeLocalObjectStore env cfg
  | disabled => exact neverRaises_pure ()
  | s3 src =>
    dsimp only
    split
    · exact neverRaises_removeS3ObjectPrefix env naming src volume
    · exact neverRaises_pure ()

end OpenHost.Archive
