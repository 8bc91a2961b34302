import OpenHost.Archive.Configure

/-!
# The batches of the reclaim

The reclaim after a switch from one bucket to another, with the calls of the S3 client as a parameter.
Read in the environment of `configure_backend` it is `reclaimSource`; read so that every request is
written down it tells which deletions are sent, in which batches, when no request fails.
-/

namespace OpenHost.Archive

open OpenHost.Proc
open OpenHost.Text

/-! ## The program, for any client -/

/-- What the reclaim calls. -/
structure S3Calls (m : Type → Type) where
  s3Client : m Unit
  listPage : Nat → m Unit
  deleteObjects : Nat → List String → m Unit
  /-- The `try` statement around the calls, which logs what is raised. -/
  attempt : m Unit → m Unit
  logError : String → m Unit

section Program

variable {m : Type → Type} [Monad m] (calls : S3Calls m)

/-- The inner loop of `_remove_s3_object_prefix`. -/
def deletePageIn (listPrefix : String) : List String → List String → Nat → m (List String × Nat)
  | [], toDelete, n => pure (toDelete, n)
  | key :: keys, toDelete, n =>
    if key ≠ "" ∧ startsWith key listPrefix = true then
      if toDelete.length + 1 = 1000 then do
        calls.deleteObjects n (toDelete ++ [key])
        deletePageIn listPrefix keys [] (n + 1)
      else deletePageIn listPrefix keys (toDelete ++ [key]) n
    else deletePageIn listPrefix keys toDelete n

/-- The outer loop of `_remove_s3_object_prefix`, and the last, incomplete batch. -/
def deletePagesIn (listPrefix : String) : List (List String) → Nat → List String → Nat → m Unit
  | [], _, toDelete, n => if toDelete = [] then pure () else calls.deleteObjects n toDelete
  | page :: pages, p, toDelete, n => do
    calls.listPage p
    let (toDelete, n) ← deletePageIn calls listPrefix page toDelete n
    deletePagesIn listPrefix pages (p + 1) toDelete n

/-- `_remove_s3_object_prefix` -/
def removePrefixIn (pages : List (List String)) (volume : String) : m Unit :=
  if reclaimPrefix volume = "" then
    calls.logError "refusing to reclaim S3 objects: empty volume prefix would target the whole bucket"
  else
    calls.attempt do
      calls.s3Client
      deletePagesIn calls (reclaimPrefix volume ++ "/") pages 0 [] 0

/-- The end of `configure_backend` after a switch from one bucket to another. -/
def reclaimIn (pages : List (List String)) (state : BackendRow) (req : ConfigureRequest)
    (volume : String) (src : S3Store) : m Unit :=
  let sourceVolume := orElse (some state.juicefsVolumeName) defaultVolumeName
  if ¬(src.bucket = req.dest.bucket ∧ sourceVolume = volume) then removePrefixIn calls pages volume
  else pure ()

end Program

/-! ## In the environment of `configure_backend` -/

/-- The client of one execution. -/
def Env.s3Calls (env : Env) (naming : S3Naming) (src : S3Store) (volume : String) :
    S3Calls ArchiveProc where
  s3Client := external env .s3Client id
  listPage p := external env (.listPage p) id
  deleteObjects := Archive.deleteObjects env (naming.clientBucket src.region src.endpoint src.bucket)
  attempt x := tryExcept x PyError.isException fun _ =>
    logMessage ("migrated archive to new S3 bucket but failed to reclaim old objects " ++
      "under " ++ src.bucket ++ "/" ++ reclaimPrefix volume ++ "/; safe to delete manually")
  logError := logMessage

theorem deletePage_eq_in (env : Env) (naming : S3Naming) (src : S3Store)
    (volume listPrefix : String) (keys toDelete : List String) (n : Nat) :
    deletePage env (naming.clientBucket src.region src.endpoint src.bucket) listPrefix keys toDelete n =
      deletePageIn (env.s3Calls naming src volume) listPrefix keys toDelete n := by
  induction keys generalizing toDelete n with
  | nil => rfl
  | cons key keys ih =>
    rw [deletePage, deletePageIn]
    simp only [ih]
    rfl

theorem deletePages_eq_in (env : Env) (naming : S3Naming) (src : S3Store)
    (volume listPrefix : String) (pages : List (List String)) (p : Nat) (toDelete : List String)
    (n : Nat) :
    deletePages env (naming.clientBucket src.region src.endpoint src.bucket) listPrefix pages p toDelete
        n = deletePagesIn (env.s3Calls naming src volume) listPrefix pages p toDelete n := by
  induction pages generalizing p toDelete n with
  | nil => rfl
  | cons page pages ih =>
    rw [deletePages, deletePagesIn]
    simp only [ih, deletePage_eq_in env naming src volume]
    rfl

/-- The reclaim of `configure_backend` is this program. -/
theorem reclaimSource_eq_in (env : Env) (cfg : Config) (naming : S3Naming) (state : BackendRow)
    (req : ConfigureRequest) (volume : String) (src : S3Store) :
    reclaimSource env cfg naming state req volume (.s3 src) =
      reclaimIn (env.s3Calls naming src volume) env.pages state req volume src := by
  have hremove : removeS3ObjectPrefix env naming src volume =
      removePrefixIn (env.s3Calls naming src volume) env.pages volume := by
    unfold removeS3ObjectPrefix removePrefixIn
    rw [deletePages_eq_in env naming src volume]
    rfl
  unfold reclaimSource reclaimIn
  simp only [hremove]

/-! ## The requests that are sent -/

/-- Every batch of deletions is written down, and no request fails. -/
def recording : S3Calls (StateM (List (List String))) where
  s3Client := pure ()
  listPage _ := pure ()
  deleteObjects _ keys := modify (· ++ [keys])
  attempt := id
  logError _ := pure ()

/-- The batches that the reclaim sends for a listing, when no request fails. -/
def issuedBatches (pages : List (List String)) (state : BackendRow) (req : ConfigureRequest)
    (volume : String) (src : S3Store) : List (List String) :=
  ((reclaimIn recording pages state req volume src).run []).2

/-- The listed keys that are to go. -/
def selected (listPrefix : String) (keys : List String) : List String :=
  keys.filter fun key => startsWith key listPrefix

/-- What has been sent, and the batch under construction. -/
structure Batching (chosen : List String) (toDelete : List String) (sent : List (List String)) : Prop where
  flatten : sent.flatten ++ toDelete = chosen
  room : toDelete.length < 1000
  batch : ∀ b ∈ sent, b.length ≤ 1000

/-- A key of the prefix is not empty. -/
theorem ne_empty_of_startsWith {key name : String} (h : startsWith key (name ++ "/") = true) :
    key ≠ "" := by
  rintro rfl
  obtain ⟨r, hr⟩ := startsWith_iff.mp h
  have hlist := congrArg String.toList hr
  simp at hlist

/-- One page: the keys of the prefix are added, and full batches are sent. -/
theorem batching_deletePage (name : String) (keys : List String) {chosen toDelete : List String}
    {sent : List (List String)} (n : Nat) (h : Batching chosen toDelete sent) :
    ∃ toDelete' n' sent',
      (deletePageIn recording (name ++ "/") keys toDelete n).run sent = ((toDelete', n'), sent') ∧
        Batching (chosen ++ selected (name ++ "/") keys) toDelete' sent' := by
  induction keys generalizing chosen toDelete sent n with
  | nil => exact ⟨toDelete, n, sent, rfl, by simpa [selected] using h⟩
  | cons key keys ih =>
    rw [deletePageIn]
    by_cases hkey : startsWith key (name ++ "/") = true
    · have hselected : chosen ++ selected (name ++ "/") (key :: keys) =
          (chosen ++ [key]) ++ selected (name ++ "/") keys := by
        simp [selected, hkey]
      rw [if_pos ⟨ne_empty_of_startsWith hkey, hkey⟩, hselected]
      by_cases hfull : toDelete.length + 1 = 1000
      · -- the batch is full and is sent
        rw [if_pos hfull]
        have hsent : Batching (chosen ++ [key]) [] (sent ++ [toDelete ++ [key]]) := by
          refine ⟨?_, by simp, ?_⟩
          · simp [← h.flatten]
          · intro b hb
            rcases List.mem_append.mp hb with hb | hb
            · exact h.batch b hb
            · rw [List.mem_singleton.mp hb, List.length_append, List.length_singleton, hfull]
        exact ih (n + 1) hsent
      · rw [if_neg hfull]
        have hadded : Batching (chosen ++ [key]) (toDelete ++ [key]) sent := by
          refine ⟨?_, ?_, h.batch⟩
          · rw [← List.append_assoc, h.flatten]
          · have hroom := h.room
            rw [List.length_append, List.length_singleton]
            omega
        exact ih n hadded
    · have hselected : selected (name ++ "/") (key :: keys) = selected (name ++ "/") keys := by
        simp [selected, hkey]
      rw [if_neg fun hboth => hkey hboth.2, hselected]
      exact ih n h

/-- All pages: what is sent in the end is what was chosen. -/
theorem batching_deletePages (name : String) (pages : List (List String)) (p : Nat)
    {chosen toDelete : List String} {sent : List (List String)} (n : Nat)
    (h : Batching chosen toDelete sent) :
    Batching (chosen ++ selected (name ++ "/") pages.flatten) []
      ((deletePagesIn recording (name ++ "/") pages p toDelete n).run sent).2 := by
  induction pages generalizing p chosen toDelete sent n with
  | nil =>
    rw [deletePagesIn]
    by_cases hempty : toDelete = []
    · rw [if_pos hempty]
      rw [hempty] at h
      have hnothing : chosen ++ selected (name ++ "/") [] = chosen := by simp [selected]
      rw [List.flatten_nil, hnothing]
      exact h
    · rw [if_neg hempty]
      refine ⟨?_, by simp, ?_⟩
      · change (sent ++ [toDelete]).flatten ++ [] = _
        simp [selected, ← h.flatten]
      · intro b hb
        rcases List.mem_append.mp hb with hb | hb
        · exact h.batch b hb
        · rw [List.mem_singleton.mp hb]
          exact Nat.le_of_lt h.room
  | cons page pages ih =>
    obtain ⟨toDelete', n', sent', hrun, hpage⟩ := batching_deletePage name page n h
    have hstep : (deletePagesIn recording (name ++ "/") (page :: pages) p toDelete n).run sent =
        (deletePagesIn recording (name ++ "/") pages (p + 1) toDelete' n').run sent' := by
      have hpageRun : deletePageIn recording (name ++ "/") page toDelete n sent =
          ((toDelete', n'), sent') := hrun
      rw [deletePagesIn]
      change (deletePageIn recording (name ++ "/") page toDelete n >>= fun r =>
        deletePagesIn recording (name ++ "/") pages (p + 1) r.1 r.2) sent = _
      change (match deletePageIn recording (name ++ "/") page toDelete n sent with
        | (r, sent'') => deletePagesIn recording (name ++ "/") pages (p + 1) r.1 r.2 sent'') = _
      rw [hpageRun]
      rfl
    rw [hstep, List.flatten_cons]
    have hrest := ih (p + 1) n' hpage
    simpa [selected] using hrest

/-! ## What is deleted -/

/-- The name of the volume that is moved. -/
def oldVolume (state : BackendRow) : String :=
  orElse (some state.juicefsVolumeName) defaultVolumeName

theorem pickVolumeName_s3 {state : BackendRow} {src : S3Store} (h : sourceOf state = .ok (.s3 src))
    (req : ConfigureRequest) (zoneName : String) : pickVolumeName state req zoneName = oldVolume state := by
  have hbackend : state.backend = .s3 := by
    unfold sourceOf at h
    split at h
    · cases h
    · cases h
    · next hs3 => exact hs3
  unfold pickVolumeName
  rw [hbackend]
  rfl

/-- After a switch from one bucket to another the keys below the trimmed name of the volume are deleted,
each once and in order, a thousand at a time; none if the bucket is the same one or there is no name. -/
theorem issuedBatches_exact {state : BackendRow} {src : S3Store}
    (hsource : sourceOf state = .ok (.s3 src)) (req : ConfigureRequest) (zoneName : String)
    (pages : List (List String)) :
    let sent := issuedBatches pages state req (pickVolumeName state req zoneName) src
    (∀ b ∈ sent, b.length ≤ 1000) ∧
      (src.bucket = req.dest.bucket ∧ oldVolume state = pickVolumeName state req zoneName ∨
          reclaimPrefix (oldVolume state) = "" → sent = []) ∧
      (¬(src.bucket = req.dest.bucket ∧ oldVolume state = pickVolumeName state req zoneName ∨
          reclaimPrefix (oldVolume state) = "") →
        sent.flatten =
          pages.flatten.filter fun key => startsWith key (reclaimPrefix (oldVolume state) ++ "/")) := by
  intro sent
  have hvolume := pickVolumeName_s3 hsource req zoneName
  have hsent : sent = issuedBatches pages state req (oldVolume state) src := by
    rw [← hvolume]
  rw [hsent, hvolume]
  by_cases hsame : src.bucket = req.dest.bucket
  · have hnone : issuedBatches pages state req (oldVolume state) src = [] := by
      unfold issuedBatches reclaimIn
      rw [if_neg fun h => h ⟨hsame, rfl⟩]
      rfl
    rw [hnone]
    exact ⟨by simp, fun _ => rfl, fun h => absurd (Or.inl ⟨hsame, rfl⟩) h⟩
  · have hreclaim : issuedBatches pages state req (oldVolume state) src =
        ((removePrefixIn recording pages (oldVolume state)).run []).2 := by
      unfold issuedBatches reclaimIn
      rw [if_pos fun h => hsame h.1]
    rw [hreclaim]
    unfold removePrefixIn
    by_cases hprefix : reclaimPrefix (oldVolume state) = ""
    · rw [if_pos hprefix]
      have hnone : ((recording.logError
          "refusing to reclaim S3 objects: empty volume prefix would target the whole bucket").run []).2 =
          [] := rfl
      rw [hnone]
      exact ⟨by simp, fun _ => rfl, fun h => absurd (Or.inr hprefix) h⟩
    · rw [if_neg hprefix]
      have hstart : Batching [] [] [] := ⟨rfl, by simp, by simp⟩
      have hall := batching_deletePages (reclaimPrefix (oldVolume state)) pages 0 0 hstart
      refine ⟨hall.batch, fun h => ?_, fun _ => ?_⟩
      · rcases h with h | h
        · exact absurd h.1 hsame
        · exact absurd h hprefix
      · have hflat := hall.flatten
        rw [List.append_nil] at hflat
        exact hflat

/-- The archive of a zone in one bucket, and a request for another one. -/
def movedRow (volume : String) : BackendRow where
  backend := .s3
  s3Bucket := some "old-bucket"
  s3Region := none
  s3Endpoint := none
  s3Prefix := none
  s3AccessKeyId := some "key"
  s3SecretAccessKey := some "secret"
  juicefsVolumeName := volume
  configuredAt := none
  stateMessage := none

def oldStore : S3Store := ⟨"old-bucket", none, none, ("key", "secret")⟩

def moveRequest : ConfigureRequest := ⟨⟨"new-bucket", none, none, ("key", "secret")⟩, none, none, false⟩

theorem issuedBatches_zone :
    (issuedBatches [["zone/a", "other/b"], ["zone/c"]] (movedRow "zone") moveRequest
      (pickVolumeName (movedRow "zone") moveRequest "unused") oldStore).flatten =
        [["zone/a", "other/b"], ["zone/c"]].flatten.filter fun key =>
          startsWith key (reclaimPrefix (oldVolume (movedRow "zone")) ++ "/") :=
  (issuedBatches_exact rfl moveRequest "unused"
    [["zone/a", "other/b"], ["zone/c"]]).2.2 (by decide)

/-- A name with a slash at its end is trimmed: a key goes that does not start with the name and a
slash. -/
theorem issuedBatches_trimmed :
    (issuedBatches [["zone/a"]] (movedRow "zone/") moveRequest
      (pickVolumeName (movedRow "zone/") moveRequest "unused") oldStore).flatten ≠
        [["zone/a"]].flatten.filter fun key => startsWith key (oldVolume (movedRow "zone/") ++ "/") := by
  decide

end OpenHost.Archive
