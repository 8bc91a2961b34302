import OpenHost.Dns.Schedule

/-!
# The issuance of certificates

Certificate acquisitions on one event loop, from the call of `acquire_cert_for_domain` to its end:
`_acquire_cert_dns01` with its attempts and `acquire_tls_cert_via_broker`.  An acquisition holds the
issuance lock from its first order to its end, whatever the end is, and its DNS-01 challenge is among
the records from `publish` to the `finally` that clears it.

In between come zone changes, whatever becomes of CoreDNS, and changes of other records.  A
configuration that is written is written completely.
-/

namespace OpenHost.Tls

open Dns (Provider RecordKey RecordType DnsRecord ZoneFile rrset)

/-! ## The challenge records -/

/-- `_LABEL`, and the type of the records. -/
def challengeKey : RecordKey := ("_acme-challenge", .txt)

/-- `CHALLENGE_TTL_SECONDS` -/
def challengeTtlSeconds : Int := 60

/-- `publish` -/
def publish (p : Provider) (time : Nat) (values : List String) : Provider :=
  p.setRecords time challengeKey.1 challengeKey.2 values challengeTtlSeconds

/-- `clear` -/
def clear (p : Provider) (time : Nat) : Provider :=
  p.deleteRecords time challengeKey.1 challengeKey.2

/-- The values that a zone's file has at `_acme-challenge`. -/
def challenges (file : ZoneFile) : List String :=
  (file.records.filter (·.key = challengeKey)).map DnsRecord.data

/-! ## One acquisition -/

/-- `cert_provider` -/
inductive CertProvider where
  | acme
  | broker
  deriving DecidableEq, Repr

/-- Where an acquisition awaits. -/
inductive Place where
  /-- `async with _issuance_lock()` -/
  | waiting
  /-- The lock is held, and there is no order with challenges yet. -/
  | ordering (attempt : Nat)
  /-- Inside the `try` that clears the challenge, with the values that were published, if any. -/
  | solving (attempt : Nat) (published : Option (List String))
  /-- Between two attempts. -/
  | sleeping (attempt : Nat)
  | ended
  deriving DecidableEq, Repr

/-- What comes after the `await`. -/
inductive AcquisitionEvent where
  /-- The order has these pending challenges. -/
  | ordered (values : List String)
  /-- The certificate has been issued, or the order needs no challenge any more. -/
  | issued
  /-- An exception, of the kind that is retried or of another. -/
  | failed (retryable : Bool)
  | woke
  | cancelled
  deriving DecidableEq, Repr

/-- What an acquisition does to the challenge records. -/
inductive ChallengeOp where
  | keep
  | publish (values : List String)
  | clear
  deriving DecidableEq, Repr

/-- `max_attempts` -/
def maxAttempts : Nat := 3

/-- `if challenge_published` in the `finally`. -/
def clearIf : Option (List String) → ChallengeOp
  | none => .keep
  | some _ => .clear

/-- Where an attempt that failed goes on: the retry loop is that of the ACME path. -/
def afterFailure (kind : CertProvider) (attempt : Nat) (retryable : Bool) : Place :=
  if kind = .acme ∧ retryable = true ∧ attempt < maxAttempts then .sleeping attempt else .ended

/-- The acquisition up to its next `await`. -/
def Place.next (kind : CertProvider) : Place → AcquisitionEvent → Option (Place × ChallengeOp)
  | .waiting, .cancelled => some (.ended, .keep)
  | .ordering attempt, .ordered values =>
      -- the ACME path publishes only if there are pending challenges
      if kind = .acme ∧ values = [] then some (.solving attempt none, .keep)
      else some (.solving attempt (some values), .publish values)
  | .ordering attempt, .failed retryable => some (afterFailure kind attempt retryable, .keep)
  | .ordering _, .cancelled => some (.ended, .keep)
  | .solving _ published, .issued => some (.ended, clearIf published)
  | .solving attempt published, .failed retryable =>
      some (afterFailure kind attempt retryable, clearIf published)
  | .solving _ published, .cancelled => some (.ended, clearIf published)
  | .sleeping attempt, .woke => some (.ordering (attempt + 1), .keep)
  | .sleeping _, .cancelled => some (.ended, .keep)
  | _, _ => none

/-- The acquisition holds the issuance lock. -/
def Place.holds : Place → Bool
  | .waiting | .ended => false
  | .ordering _ | .solving _ _ | .sleeping _ => true

/-- The values that the acquisition has published and not cleared yet. -/
def Place.challenge : Place → Option (List String)
  | .solving _ published => published
  | _ => none

def ChallengeOp.apply (time : Nat) (p : Provider) : ChallengeOp → Provider
  | .keep => p
  | .publish values => Tls.publish p time values
  | .clear => Tls.clear p time

/-- What the operation makes of the published values. -/
def ChallengeOp.after (published : Option (List String)) : ChallengeOp → Option (List String)
  | .keep => published
  | .publish values => some values
  | .clear => none

/-! ## All acquisitions -/

structure Acquisition where
  kind : CertProvider
  place : Place
  deriving DecidableEq, Repr

structure Issuance where
  provider : Provider
  acquisitions : List Acquisition
  /-- The acquisition that holds the issuance lock. -/
  lock : Option Nat

inductive IssuanceAction where
  /-- `acquire_cert_for_domain` is called. -/
  | begin (kind : CertProvider)
  /-- The `i`-th acquisition takes the lock. -/
  | take (i : Nat)
  | event (i : Nat) (time : Nat) (e : AcquisitionEvent)
  /-- A zone change, up to the point where the configuration is written. -/
  | changeZones (time : Nat) (zones : List String)
  /-- Something becomes of CoreDNS. -/
  | process (coredns : Option Dns.CoreDnsProcess)
  | setRecords (time : Nat) (name : String) (type : RecordType) (values : List String) (ttl : Int)
  | deleteRecords (time : Nat) (name : String) (type : RecordType)

namespace Issuance

/-- The acquisition at `i` goes on to `place`, and lets go of the lock where it ends. -/
def move (s : Issuance) (i : Nat) (a : Acquisition) (place : Place) (p : Provider) : Issuance where
  provider := p
  acquisitions := s.acquisitions.set i { a with place := place }
  lock := if s.lock = some i ∧ place.holds = false then none else s.lock

def next (s : Issuance) : IssuanceAction → Option Issuance
  | .begin kind =>
      -- DNS-01 needs a zone that this instance serves
      if s.provider.servesPublicZones then
        some { s with acquisitions := s.acquisitions ++ [⟨kind, .waiting⟩] }
      else some s
  | .take i =>
      match s.lock, s.acquisitions[i]? with
      | none, some ⟨kind, .waiting⟩ =>
          some { s with acquisitions := s.acquisitions.set i ⟨kind, .ordering 1⟩, lock := some i }
      | _, _ => none
  | .event i time e =>
      s.acquisitions[i]?.bind fun a =>
        (a.place.next a.kind e).map fun next => s.move i a next.1 (next.2.apply time s.provider)
  | .changeZones time zones =>
      if s.provider.servesPublicZones then
        some { s with provider := (s.provider.moveZones zones).writeConfig time }
      else none
  | .process coredns => some { s with provider := { s.provider with coredns := coredns } }
  | .setRecords time name type values ttl =>
      if (name, type) = challengeKey then none
      else some { s with provider := s.provider.setRecords time name type values ttl }
  | .deleteRecords time name type =>
      if (name, type) = challengeKey then none
      else some { s with provider := s.provider.deleteRecords time name type }

/-- A provider as it is created, and no acquisition. -/
structure Fresh (s : Issuance) : Prop where
  zones : s.provider.zones = []
  records : s.provider.records = .empty
  acquisitions : s.acquisitions = []
  lock : s.lock = none

/-- The values that the holder of the lock has published. -/
def published (s : Issuance) : Option (List String) :=
  s.lock.bind fun i => s.acquisitions[i]?.bind fun a => a.place.challenge

end Issuance

def issuanceStep (s : Issuance) (a : IssuanceAction) (s' : Issuance) : Prop := s.next a = some s'

/-! ## What one acquisition does -/

/-- What has been published is what the place says. -/
theorem challenge_of_next {kind : CertProvider} {place place' : Place} {e : AcquisitionEvent}
    {op : ChallengeOp} (h : place.next kind e = some (place', op)) :
    place'.challenge = op.after place.challenge := by
  have hfailure : ∀ attempt retryable, (afterFailure kind attempt retryable).challenge = none := by
    intro attempt retryable
    unfold afterFailure
    split <;> rfl
  have hclear : ∀ published, (clearIf published).after published = none := by
    intro published
    cases published <;> rfl
  unfold Place.next at h
  split at h
  · cases h
    rfl
  · split at h
    · cases h
      rfl
    · cases h
      rfl
  · cases h
    exact hfailure _ _
  · cases h
    rfl
  · cases h
    exact (hclear _).symm
  · cases h
    exact (hfailure _ _).trans (hclear _).symm
  · cases h
    exact (hclear _).symm
  · cases h
    rfl
  · cases h
    rfl
  · cases h

theorem holds_of_challenge {place : Place} {values : List String} (h : place.challenge = some values) :
    place.holds = true := by
  cases place with
  | solving attempt published => rfl
  | waiting => cases h
  | ordering attempt => cases h
  | sleeping attempt => cases h
  | ended => cases h

/-- Only the lock itself makes an acquisition that waits go on. -/
theorem holds_of_next {kind : CertProvider} {place place' : Place} {e : AcquisitionEvent}
    {op : ChallengeOp} (h : place.next kind e = some (place', op)) (hholds : place.holds = false) :
    place'.holds = false ∧ op = .keep := by
  cases place with
  | waiting =>
    cases e with
    | cancelled =>
      cases h
      exact ⟨rfl, rfl⟩
    | ordered values => cases h
    | issued => cases h
    | failed retryable => cases h
    | woke => cases h
  | ended => cases h
  | ordering attempt => cases hholds
  | solving attempt published => cases hholds
  | sleeping attempt => cases hholds

/-! ## The records -/

section

variable {p : Provider} {time : Nat}

/-- The records of the challenge are those of the values. -/
def Carries (p : Provider) (published : Option (List String)) : Prop :=
  p.records.get challengeKey =
    published.map fun values => rrset challengeKey.1 challengeKey.2 values challengeTtlSeconds

theorem records_setRecords (name : String) (type : RecordType) (values : List String) (ttl : Int)
    (key : RecordKey) : (p.setRecords time name type values ttl).records.get key =
      if (name, type) = key then some (rrset name type values ttl) else p.records.get key := by
  unfold Provider.setRecords
  split
  · rename_i hset
    split
    · rename_i hkey
      rw [← hkey, hset]
    · rfl
  · rw [Provider.records_writeConfig, Dns.Records.get_set]

theorem records_deleteRecords (name : String) (type : RecordType) (key : RecordKey) :
    (p.deleteRecords time name type).records.get key =
      if (name, type) = key then none else p.records.get key := by
  unfold Provider.deleteRecords
  split
  · rename_i habsent
    split
    · rename_i hkey
      rw [← hkey, habsent]
    · rfl
  · rw [Provider.records_writeConfig, Dns.Records.get_pop]

theorem carries_apply {published : Option (List String)} (h : Carries p published) (time : Nat)
    (op : ChallengeOp) : Carries (op.apply time p) (op.after published) := by
  cases op with
  | keep => exact h
  | publish values =>
    unfold Carries ChallengeOp.apply publish
    rw [records_setRecords, if_pos rfl]
    rfl
  | clear =>
    unfold Carries ChallengeOp.apply clear
    rw [records_deleteRecords, if_pos rfl]
    rfl

theorem servesPublicZones_apply (op : ChallengeOp) :
    (op.apply time p).servesPublicZones = p.servesPublicZones := by
  cases op with
  | keep => rfl
  | publish values =>
    exact congrArg Option.isSome (Provider.bindIp_setRecords _ _ _ _ _)
  | clear => exact congrArg Option.isSome (Provider.bindIp_deleteRecords _ _ _)

theorem zones_apply (op : ChallengeOp) : (op.apply time p).zones = p.zones := by
  cases op with
  | keep => rfl
  | publish values => exact Provider.zones_setRecords _ _ _ _ _
  | clear => exact Provider.zones_deleteRecords _ _ _

theorem filed_apply {start : Provider} (h : Provider.Filed start p) (op : ChallengeOp) :
    Provider.Filed start (op.apply time p) := by
  cases op with
  | keep => exact h
  | publish values => exact Provider.filed_setRecords h _ _ _ _ _
  | clear => exact Provider.filed_deleteRecords h _ _ _

end

/-! ## What every step preserves -/

namespace Issuance

/-- The invariant of a run that has begun with the provider `start`. -/
structure Inv (start : Provider) (s : Issuance) : Prop where
  /-- The lock is held by the one acquisition that says so. -/
  lock : ∀ i, s.lock = some i ↔ ∃ a, s.acquisitions[i]? = some a ∧ a.place.holds = true
  carries : Carries s.provider s.published
  files : Provider.Filed start s.provider
  serves : s.provider.servesPublicZones = start.servesPublicZones
  bound : s.provider.zones ≠ [] → start.servesPublicZones = true

variable {start : Provider} {s s' : Issuance}

/-- Without the lock an acquisition has published nothing. -/
theorem published_of_lock {i : Nat} {a : Acquisition} (hlock : s.lock = some i)
    (ha : s.acquisitions[i]? = some a) : s.published = a.place.challenge := by
  rw [published, hlock, Option.bind_some, ha, Option.bind_some]

theorem published_of_free (hlock : s.lock = none) : s.published = none := by
  rw [published, hlock, Option.bind_none]

theorem lt_of_lock (h : Inv start s) {i : Nat} (hlock : s.lock = some i) :
    i < s.acquisitions.length := by
  obtain ⟨a, ha, -⟩ := (h.lock i).mp hlock
  exact (List.getElem?_eq_some_iff.mp ha).1

theorem inv_begin (h : Inv start s) (kind : CertProvider) :
    Inv start { s with acquisitions := s.acquisitions ++ [⟨kind, .waiting⟩] } where
  lock i := by
    rw [h.lock i]
    constructor
    · rintro ⟨a, ha, hholds⟩
      exact ⟨a, List.getElem?_append_left (List.getElem?_eq_some_iff.mp ha).1 ▸ ha, hholds⟩
    · rintro ⟨a, ha, hholds⟩
      rw [List.getElem?_append] at ha
      split at ha
      · exact ⟨a, ha, hholds⟩
      · -- the new one waits
        obtain rfl := List.mem_singleton.mp (List.mem_of_getElem? ha)
        cases hholds
  carries := by
    have hsame : Issuance.published { s with acquisitions := s.acquisitions ++ [⟨kind, .waiting⟩] } =
        s.published := by
      unfold published
      cases hlock : s.lock with
      | none => rfl
      | some i =>
        rw [Option.bind_some, Option.bind_some, List.getElem?_append_left (lt_of_lock h hlock)]
    rw [hsame]
    exact h.carries
  files := h.files
  serves := h.serves
  bound := h.bound

theorem inv_take {i : Nat} {kind : CertProvider} (h : Inv start s) (hlock : s.lock = none)
    (hi : s.acquisitions[i]? = some ⟨kind, .waiting⟩) :
    Inv start
      { s with acquisitions := s.acquisitions.set i ⟨kind, .ordering 1⟩, lock := some i } := by
  have hlt := (List.getElem?_eq_some_iff.mp hi).1
  have hset : (s.acquisitions.set i ⟨kind, .ordering 1⟩)[i]? = some ⟨kind, .ordering 1⟩ := by
    rw [List.getElem?_set_self hlt]
  refine ⟨?_, ?_, h.files, h.serves, h.bound⟩
  · intro j
    dsimp only
    by_cases hij : i = j
    · subst hij
      exact iff_of_true rfl ⟨_, hset, rfl⟩
    · -- nobody else holds the lock that was free
      rw [List.getElem?_set_ne hij, ← h.lock j, hlock]
      simp [hij]
  · rw [published_of_lock rfl hset]
    have hcarries := h.carries
    rw [published_of_free hlock] at hcarries
    exact hcarries

section

variable {i j : Nat} {a : Acquisition} {place : Place} {p : Provider}

theorem lock_move : (s.move i a place p).lock = some j ↔
    s.lock = some j ∧ (i = j → place.holds = true) := by
  unfold move
  dsimp only
  by_cases hends : s.lock = some i ∧ place.holds = false
  · rw [if_pos hends]
    refine iff_of_false (by simp) ?_
    rintro ⟨hlock, hholds⟩
    rw [hends.1] at hlock
    rw [hholds (Option.some.inj hlock)] at hends
    exact Bool.false_ne_true hends.2.symm
  · rw [if_neg hends]
    refine (and_iff_left_of_imp ?_).symm
    rintro hlock rfl
    rw [← Bool.not_eq_false]
    exact fun hholds => hends ⟨hlock, hholds⟩

theorem get_move (ha : s.acquisitions[i]? = some a) : (s.move i a place p).acquisitions[j]? =
    if i = j then some { a with place := place } else s.acquisitions[j]? := by
  unfold move
  dsimp only
  rw [List.getElem?_set, if_pos (List.getElem?_eq_some_iff.mp ha).1]

/-- Without the lock the acquisition has waited, and does so or has ended. -/
theorem holds_false_of_lock (h : Inv start s) (ha : s.acquisitions[i]? = some a)
    (hlock : s.lock ≠ some i) : a.place.holds = false := by
  rw [← Bool.not_eq_true]
  exact fun hholds => hlock ((h.lock i).mpr ⟨a, ha, hholds⟩)

theorem published_move {e : AcquisitionEvent} {op : ChallengeOp} (h : Inv start s)
    (ha : s.acquisitions[i]? = some a) (hnext : a.place.next a.kind e = some (place, op)) :
    (s.move i a place p).published = op.after s.published := by
  by_cases hlock : s.lock = some i
  · rw [published_of_lock hlock ha, ← challenge_of_next hnext]
    cases hholds : place.holds with
    | true =>
      have hget : (s.move i a place p).acquisitions[i]? = some { a with place := place } := by
        rw [get_move ha, if_pos rfl]
      exact published_of_lock (lock_move.mpr ⟨hlock, fun _ => hholds⟩) hget
    | false =>
      -- the acquisition has ended, and cleared what it had published
      rw [published_of_free (if_pos ⟨hlock, hholds⟩)]
      cases hchallenge : place.challenge with
      | none => rfl
      | some values =>
        rw [holds_of_challenge hchallenge] at hholds
        cases hholds
  · obtain ⟨-, rfl⟩ := holds_of_next hnext (holds_false_of_lock h ha hlock)
    have hsame : (s.move i a place p).lock = s.lock := if_neg fun hends => hlock hends.1
    rw [published, published, hsame]
    cases hheld : s.lock with
    | none => rfl
    | some j =>
      have hij : i ≠ j := fun hij => hlock (hij ▸ hheld)
      rw [Option.bind_some, Option.bind_some, get_move ha, if_neg hij]
      rfl

theorem inv_event {e : AcquisitionEvent} {op : ChallengeOp} (h : Inv start s)
    (ha : s.acquisitions[i]? = some a) (hnext : a.place.next a.kind e = some (place, op))
    (time : Nat) : Inv start (s.move i a place (op.apply time s.provider)) where
  lock j := by
    rw [lock_move, get_move ha, h.lock j]
    by_cases hij : i = j
    · subst hij
      rw [if_pos rfl]
      constructor
      · intro hlock
        exact ⟨_, rfl, hlock.2 rfl⟩
      · rintro ⟨a', ha', hholds⟩
        obtain rfl := Option.some.inj ha'
        refine ⟨?_, fun _ => hholds⟩
        -- it could not have gone on without the lock
        rw [← h.lock i]
        by_contra hlock
        rw [(holds_of_next hnext (holds_false_of_lock h ha hlock)).1] at hholds
        cases hholds
    · rw [if_neg hij]
      exact and_iff_left fun heq => absurd heq hij
  carries := by
    rw [published_move h ha hnext]
    exact carries_apply h.carries time op
  files := filed_apply h.files op
  serves := (servesPublicZones_apply op).trans h.serves
  bound hne := h.bound (by
    rw [← zones_apply op]
    exact hne)

end

/-- What does not bear on the challenge. -/
theorem inv_provider {p : Provider} (h : Inv start s) (hfiles : Provider.Filed start p)
    (hrecords : p.records.get challengeKey = s.provider.records.get challengeKey)
    (hserves : p.servesPublicZones = s.provider.servesPublicZones)
    (hbound : p.zones ≠ [] → start.servesPublicZones = true) :
    Inv start { s with provider := p } where
  lock := h.lock
  carries := hrecords.trans h.carries
  files := hfiles
  serves := hserves.trans h.serves
  bound := hbound

theorem inv_next {a : IssuanceAction} (h : Inv start s) (hnext : s.next a = some s') :
    Inv start s' := by
  cases a with
  | begin kind =>
    rw [next] at hnext
    split at hnext
    · cases hnext
      exact inv_begin h kind
    · cases hnext
      exact h
  | take i =>
    rw [next] at hnext
    split at hnext
    · rename_i hlock hi
      cases hnext
      exact inv_take h hlock hi
    · cases hnext
  | event i time e =>
    obtain ⟨a, ha, hmoved⟩ := Option.bind_eq_some_iff.mp hnext
    obtain ⟨⟨place, op⟩, hplace, rfl⟩ := Option.map_eq_some_iff.mp hmoved
    exact inv_event h ha hplace time
  | changeZones time zones =>
    rw [next] at hnext
    split at hnext
    · rename_i hserves
      cases hnext
      refine inv_provider h (Provider.filed_writeConfig (fun hunbound => ?_) time) ?_ ?_
        fun _ => h.serves ▸ hserves
      · have hbound : (s.provider.moveZones zones).bound = true :=
          Dns.Schedule.bound_of_serves hserves
        rw [hbound] at hunbound
        cases hunbound
      · rw [Provider.records_writeConfig]
        rfl
      · exact congrArg Option.isSome (Provider.bindIp_writeConfig time)
    · cases hnext
  | process coredns =>
    cases hnext
    exact inv_provider h (h.files.withProcess coredns) rfl rfl h.bound
  | setRecords time name type values ttl =>
    rw [next] at hnext
    split at hnext
    · cases hnext
    · rename_i hother
      cases hnext
      refine inv_provider h (Provider.filed_setRecords h.files time name type values ttl) ?_ ?_
        fun hne => h.bound (by rwa [Provider.zones_setRecords] at hne)
      · rw [records_setRecords, if_neg hother]
      · exact congrArg Option.isSome (Provider.bindIp_setRecords time name type values ttl)
  | deleteRecords time name type =>
    rw [next] at hnext
    split at hnext
    · cases hnext
    · rename_i hother
      cases hnext
      refine inv_provider h (Provider.filed_deleteRecords h.files time name type) ?_ ?_
        fun hne => h.bound (by rwa [Provider.zones_deleteRecords] at hne)
      · rw [records_deleteRecords, if_neg hother]
      · exact congrArg Option.isSome (Provider.bindIp_deleteRecords time name type)

theorem inv_of_fresh (h : s.Fresh) : Inv s.provider s where
  lock i := by
    rw [h.lock, h.acquisitions]
    simp
  carries := by
    rw [published_of_free h.lock, Carries, h.records]
    rfl
  files := ⟨fun _ => Or.inr ⟨rfl, h.zones, h.records⟩, fun _ => rfl⟩
  serves := rfl
  bound hne := absurd h.zones hne

/-- The acquisition that has published its challenge is the one that holds the lock. -/
theorem published_of_challenge (h : Inv start s) {i : Nat} {a : Acquisition} {values : List String}
    (ha : s.acquisitions[i]? = some a) (hchallenge : a.place.challenge = some values) :
    s.published = some values := by
  have hlock := (h.lock i).mpr ⟨a, ha, holds_of_challenge hchallenge⟩
  rw [published_of_lock hlock ha, hchallenge]

/-- Where no acquisition has a challenge published, none is. -/
theorem published_of_none (h : ∀ a ∈ s.acquisitions, a.place.challenge = none) :
    s.published = none := by
  unfold published
  cases s.lock with
  | none => rfl
  | some i =>
    cases ha : s.acquisitions[i]? with
    | none => simp [ha]
    | some a =>
      rw [Option.bind_some, ha]
      exact h a (List.mem_of_getElem? ha)

/-- The files of the zones carry what has been published. -/
theorem challenges_of_carries {published : Option (List String)} (h : Inv start s)
    (hpublished : s.published = published) {zone : String} (hzone : zone ∈ s.provider.zones) :
    ∃ file, s.provider.disk.zoneFiles (Dns.zonefilePath zone) = some file ∧
      (challenges file).Perm (published.getD []) := by
  have hne : s.provider.zones ≠ [] := List.ne_nil_of_mem hzone
  have hserves := h.serves.trans (h.bound hne)
  have hrendered := h.files.rendered_of_zones (Dns.Schedule.bound_of_serves hserves) hne
  obtain ⟨zone', -, -, hfile⟩ := hrendered.zoneFile zone hzone
  refine ⟨_, hfile, ?_⟩
  have hperm := (s.provider.records.filter_sorted_perm challengeKey).map DnsRecord.data
  have hcarries := h.carries
  rw [Carries, hpublished] at hcarries
  rw [hcarries] at hperm
  cases published with
  | none => exact hperm
  | some values =>
    have hdata : (rrset challengeKey.1 challengeKey.2 values challengeTtlSeconds).map DnsRecord.data =
        values := by
      rw [rrset, List.map_map]
      exact List.map_id _
    rw [Option.map_some, Option.getD_some, hdata] at hperm
    exact hperm

end Issuance

/-- In every interleaving: while an acquisition has its challenge published every zone carries exactly
its values, and while no acquisition has, in particular while none is in progress, no zone carries
any. -/
theorem challenges_of_reaches (s₀ : Issuance) (hfresh : s₀.Fresh) (s : Issuance)
    (h : Reach issuanceStep (fun _ _ => True) s₀ s) :
    (∀ (i : Nat) (a : Acquisition) (values : List String), s.acquisitions[i]? = some a → a.place.challenge = some values →
      ∀ zone ∈ s.provider.zones, ∃ file,
        s.provider.disk.zoneFiles (Dns.zonefilePath zone) = some file ∧
          (challenges file).Perm values) ∧
    ((∀ a ∈ s.acquisitions, a.place.challenge = none) →
      ∀ zone ∈ s.provider.zones, ∃ file,
        s.provider.disk.zoneFiles (Dns.zonefilePath zone) = some file ∧ challenges file = []) := by
  have hinv : s.Inv s₀.provider :=
    h.invariant (Issuance.Inv s₀.provider) (Issuance.inv_of_fresh hfresh)
      fun _ _ _ ht _ hstep => Issuance.inv_next ht hstep
  constructor
  · intro i a values ha hchallenge zone hzone
    exact Issuance.challenges_of_carries hinv (Issuance.published_of_challenge hinv ha hchallenge) hzone
  · intro hnone zone hzone
    obtain ⟨file, hfile, hperm⟩ :=
      Issuance.challenges_of_carries hinv (Issuance.published_of_none hnone) hzone
    exact ⟨file, hfile, List.perm_nil.mp hperm⟩

/-! ### One challenge -/

def freshIssuance : Issuance := ⟨Dns.freshProvider (some "10.0.0.2"), [], none⟩

/-- The first zone is served, and an acquisition for it has published its challenge. -/
def oneChallenge : Issuance :=
  ⟨publish Dns.firstZone 2 ["token"], [⟨.acme, .solving 1 (some ["token"])⟩], some 0⟩

theorem oneChallenge_carried : ∃ file,
    oneChallenge.provider.disk.zoneFiles (Dns.zonefilePath "host.example.com") = some file ∧
      (challenges file).Perm ["token"] := by
  have hfresh : freshIssuance.Fresh := ⟨rfl, rfl, rfl, rfl⟩
  have hreach : Reach issuanceStep (fun _ _ => True) freshIssuance oneChallenge :=
    .step (a := .event 0 2 (.ordered ["token"]))
      (.step (a := .take 0)
        (.step (a := .begin .acme)
          (.step (a := .changeZones 1 ["host.example.com"]) .refl trivial rfl) trivial rfl)
        trivial rfl)
      trivial rfl
  have hzones : oneChallenge.provider.zones = ["host.example.com"] :=
    Provider.zones_setRecords _ _ _ _ _
  refine (challenges_of_reaches freshIssuance hfresh oneChallenge hreach).1 0 _ ["token"] rfl rfl _ ?_
  rw [hzones]
  exact List.mem_cons_self

end OpenHost.Tls
