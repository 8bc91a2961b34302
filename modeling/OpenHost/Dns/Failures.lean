import OpenHost.Dns.Provider

/-!
# Failures of the DNS provider

The four operations of the provider, each run by itself, with faults that strike where the files of a
zone are discarded, where the configuration is written and where CoreDNS is started.  An operation is
the state it leaves, what it has done to the files and the process, and the exception it ends with.

The memory is changed before the files and the process are.  What a fault leaves in memory then makes
the next call of the same operation return early.
-/

namespace OpenHost.Dns

/-! ## Operations with faults -/

/-- The steps that fail when they are reached, with what they leave of the files. -/
structure Faults where
  discard : Option (Disk → Disk)
  write : Option (Disk → Disk)
  /-- `CoreDnsProcess.start`, which `restart` calls too. -/
  start : Bool

/-- Nothing fails. -/
def Faults.none : Faults := ⟨.none, .none, false⟩

inductive DnsError where
  /-- `DnsNotEnabled` -/
  | notEnabled
  | failed
  deriving DecidableEq, Repr

/-- What has been done to the files and the process. -/
inductive Effect where
  | discarded (zones : List String)
  | wrote (zones : List String) (records : List DnsRecord)
  | started (zones : List String)
  | restarted (zones : List String)
  | stopped
  deriving DecidableEq, Repr

structure Outcome where
  provider : Provider
  effects : List Effect
  raised : Option DnsError

/-- The statements of `next` come after, unless an exception has been raised. -/
def Outcome.andThen (o : Outcome) (next : Provider → Outcome) : Outcome :=
  match o.raised with
  | some e => ⟨o.provider, o.effects, some e⟩
  | none =>
      ⟨(next o.provider).provider, o.effects ++ (next o.provider).effects, (next o.provider).raised⟩

namespace Provider

/-- The assignment to `self._zones` and `discard_zone_files`. -/
def moveZonesOrFail (f : Faults) (zones : List String) (p : Provider) : Outcome :=
  let removed := p.zones.filter (· ∉ zones)
  if removed = [] then ⟨p.moveZones zones, [], none⟩
  else match f.discard with
    | some damage => ⟨{ p with zones := zones, disk := damage p.disk }, [], some .failed⟩
    | none => ⟨p.moveZones zones, [.discarded removed], none⟩

/-- `_write_config` -/
def writeConfigOrFail (f : Faults) (time : Nat) (p : Provider) : Outcome :=
  if p.bound then
    match f.write with
    -- the serial has been drawn before anything is written
    | some damage =>
        ⟨{ p with serial := p.nextSerial time, disk := damage p.disk }, [], some .failed⟩
    | none => ⟨p.writeConfig time, [.wrote p.zones p.records.sorted], none⟩
  else ⟨p, [], none⟩

/-- `_match_process_to_zones` -/
def matchProcessToZones (f : Faults) (p : Provider) : Outcome :=
  if p.zones = [] then
    match p.coredns with
    | none => ⟨p, [], none⟩
    | some _ => ⟨{ p with coredns := none }, [.stopped], none⟩
  else
    match p.coredns with
    | none =>
        if f.start then ⟨p, [], some .failed⟩
        else ⟨p.spawn, [.started p.corefileZones], none⟩
    | some process =>
        -- the old process has been stopped when the new one fails to start
        if f.start then
          ⟨{ p with coredns := some { process with running := false } }, [.stopped], some .failed⟩
        else ⟨p.spawn, [.restarted p.corefileZones], none⟩

/-- `_apply_zones` -/
def applyZones (f : Faults) (time : Nat) (zones : List String) (p : Provider) : Outcome :=
  ((p.moveZonesOrFail f zones).andThen (writeConfigOrFail f time)).andThen (matchProcessToZones f)

/-- `add_zone` -/
def addZone (f : Faults) (time : Nat) (zone : String) (p : Provider) : Outcome :=
  if isLocalOnly zone then ⟨p, [], none⟩
  else if !p.servesPublicZones then ⟨p, [], some .notEnabled⟩
  else if normalizeZone zone ∈ p.zones then ⟨p, [], none⟩
  else p.applyZones f time (p.zones ++ [normalizeZone zone])

/-- `remove_zone` -/
def removeZone (f : Faults) (time : Nat) (zone : String) (p : Provider) : Outcome :=
  if isLocalOnly zone || !p.servesPublicZones then ⟨p, [], none⟩
  else p.applyZones f time (p.zones.filter (· ≠ normalizeZone zone))

/-- `set_records` -/
def setRecordsOrFail (f : Faults) (time : Nat) (name : String) (type : RecordType)
    (values : List String) (ttl : Int) (p : Provider) : Outcome :=
  if p.records.get (name, type) = some (rrset name type values ttl) then ⟨p, [], none⟩
  else { p with records := p.records.set name type values ttl }.writeConfigOrFail f time

/-- `delete_records` -/
def deleteRecordsOrFail (f : Faults) (time : Nat) (name : String) (type : RecordType)
    (p : Provider) : Outcome :=
  match p.records.get (name, type) with
  | none => ⟨p, [], none⟩
  | some _ => { p with records := p.records.pop (name, type) }.writeConfigOrFail f time

end Provider

inductive DnsCall where
  | addZone (zone : String)
  | removeZone (zone : String)
  | setRecords (name : String) (type : RecordType) (values : List String) (ttl : Int)
  | deleteRecords (name : String) (type : RecordType)
  deriving DecidableEq, Repr

def DnsCall.run (f : Faults) (time : Nat) (p : Provider) : DnsCall → Outcome
  | .addZone zone => p.addZone f time zone
  | .removeZone zone => p.removeZone f time zone
  | .setRecords name type values ttl => p.setRecordsOrFail f time name type values ttl
  | .deleteRecords name type => p.deleteRecordsOrFail f time name type

/-! ## What a failed call is to leave -/

/-- Two outcomes have done the same, and report the same zones and records. -/
def Outcome.SameEffect (o o' : Outcome) : Prop :=
  o.raised = o'.raised ∧ o.effects = o'.effects ∧ o.provider.zones = o'.provider.zones ∧
    o.provider.records.sorted = o'.provider.records.sorted

/-- The call leaves the zones and records that the provider reports, and a process that matches them;
and repeating it without a fault does what the call would have done in the first place. -/
def Kept (f : Faults) (time : Nat) (p : Provider) (call : DnsCall) : Prop :=
  (call.run f time p).provider.zones = p.zones ∧
    (call.run f time p).provider.records.sorted = p.records.sorted ∧
    (call.run f time p).provider.Matched ∧
    ∀ time', (call.run .none time' (call.run f time p).provider).SameEffect (call.run .none time' p)

/-- The process matches the zones, and the call is refused because there is no address to serve on, or
it removes a zone that is not there and fails where the configuration is written. -/
def Harmless (f : Faults) (p : Provider) (call : DnsCall) : Prop :=
  p.Matched ∧
    ((∃ zone, call = .addZone zone ∧ p.servesPublicZones = false) ∨
      ∃ zone, call = .removeZone zone ∧ normalizeZone zone ∉ p.zones ∧ f.write.isSome = true)

namespace Provider

variable {f : Faults} {time : Nat} {p : Provider} {zones : List String} {zone : String}

/-! ## The steps by their outcome -/

theorem andThen_of_raised {o : Outcome} {e : DnsError} (h : o.raised = some e)
    (next : Provider → Outcome) : o.andThen next = o := by
  unfold Outcome.andThen
  rw [h]
  cases o
  cases h
  rfl

theorem andThen_of_returned {o : Outcome} (h : o.raised = none) (next : Provider → Outcome) :
    o.andThen next = ⟨(next o.provider).provider, o.effects ++ (next o.provider).effects,
      (next o.provider).raised⟩ := by
  unfold Outcome.andThen
  rw [h]

theorem zones_andThen {o : Outcome} {next : Provider → Outcome} (h : o.provider.zones = zones)
    (hnext : ∀ p, (next p).provider.zones = p.zones) : (o.andThen next).provider.zones = zones := by
  cases hraised : o.raised with
  | some e => rw [andThen_of_raised hraised, h]
  | none => rw [andThen_of_returned hraised, hnext, h]

theorem zones_writeConfigOrFail (p : Provider) :
    (p.writeConfigOrFail f time).provider.zones = p.zones := by
  unfold writeConfigOrFail
  split
  · split
    · rfl
    · exact zones_writeConfig time
  · rfl

theorem zones_matchProcessToZones (p : Provider) :
    (p.matchProcessToZones f).provider.zones = p.zones := by
  unfold matchProcessToZones
  split
  · split <;> rfl
  · split
    · split <;> rfl
    · split <;> rfl

/-- The zones are changed, whatever fails afterwards. -/
theorem zones_applyZones : (p.applyZones f time zones).provider.zones = zones := by
  have hmove : (p.moveZonesOrFail f zones).provider.zones = zones := by
    unfold moveZonesOrFail
    dsimp only
    split
    · rfl
    · split <;> rfl
  exact zones_andThen (zones_andThen hmove zones_writeConfigOrFail) zones_matchProcessToZones

/-- The zones as they are: nothing is discarded. -/
theorem applyZones_self : p.applyZones f time p.zones =
    (p.writeConfigOrFail f time).andThen (matchProcessToZones f) := by
  have hremoved : p.zones.filter (· ∉ p.zones) = [] := by simp
  have hmove : p.moveZones p.zones = p := by
    unfold moveZones
    rw [hremoved]
    simp [discardZoneFiles]
  have hsame : p.moveZonesOrFail f p.zones = ⟨p, [], none⟩ := by
    unfold moveZonesOrFail
    rw [hremoved, hmove]
    rfl
  unfold applyZones
  rw [hsame]
  rfl

/-- A failure of the write has changed nothing in memory but the serial. -/
theorem writeConfigOrFail_of_damage {damage : Disk → Disk} (hbound : p.bound = true)
    (hwrite : f.write = some damage) : p.writeConfigOrFail f time =
      ⟨{ p with serial := p.nextSerial time, disk := damage p.disk }, [], some .failed⟩ := by
  rw [writeConfigOrFail, if_pos hbound, hwrite]

theorem writeConfigOrFail_of_none (hbound : p.bound = true) (hwrite : f.write = none) :
    p.writeConfigOrFail f time =
      ⟨p.writeConfig time, [.wrote p.zones p.records.sorted], none⟩ := by
  rw [writeConfigOrFail, if_pos hbound, hwrite]

/-- A write can only fail where there is one. -/
theorem write_of_raised (h : (p.writeConfigOrFail f time).raised ≠ none) :
    p.bound = true ∧ ∃ damage, f.write = some damage := by
  unfold writeConfigOrFail at h
  split at h
  · rename_i hbound
    cases hwrite : f.write with
    | none =>
      rw [hwrite] at h
      exact absurd rfl h
    | some damage => exact ⟨hbound, damage, rfl⟩
  · exact absurd rfl h

/-- CoreDNS is dead or was never started when its start has failed. -/
theorem not_matched_of_raised (h : (p.matchProcessToZones f).raised ≠ none) :
    ¬ (p.matchProcessToZones f).provider.Matched := by
  unfold matchProcessToZones at h ⊢
  split at h
  · split at h <;> exact absurd rfl h
  · rename_i hzones
    rw [if_neg hzones]
    cases hcoredns : p.coredns with
    | none =>
      rw [hcoredns] at h
      dsimp only at h ⊢
      split at h
      · rename_i hstart
        rw [if_pos hstart, Matched, if_neg hzones, hcoredns]
        simp
      · exact absurd rfl h
    | some process =>
      rw [hcoredns] at h
      dsimp only at h ⊢
      split at h
      · rename_i hstart
        rw [if_pos hstart, Matched, if_neg hzones]
        simp
      · exact absurd rfl h

/-- What is done to the process depends on the zones, the Corefile and the process only. -/
theorem effects_matchProcessToZones {p' : Provider} (hzones : p'.zones = p.zones)
    (hcorefile : p'.corefileZones = p.corefileZones) (hcoredns : p'.coredns = p.coredns) :
    (p'.matchProcessToZones .none).effects = (p.matchProcessToZones .none).effects := by
  unfold matchProcessToZones
  rw [hzones, hcorefile, hcoredns]
  split
  · split <;> rfl
  · split <;> rfl

theorem raised_matchProcessToZones (p : Provider) :
    (p.matchProcessToZones .none).raised = none := by
  unfold matchProcessToZones
  split
  · split <;> rfl
  · split <;> rfl

theorem records_matchProcessToZones (p : Provider) :
    (p.matchProcessToZones f).provider.records = p.records := by
  unfold matchProcessToZones
  split
  · split <;> rfl
  · split
    · split <;> rfl
    · split <;> rfl

theorem bound_of_servesPublicZones (h : p.servesPublicZones = true) : p.bound = true := by
  unfold servesPublicZones at h
  rw [bound, h, Bool.true_or]

/-- Removing a zone that is not there. -/
theorem removeZone_of_absent (hlocal : isLocalOnly zone = false) (hserves : p.servesPublicZones = true)
    (habsent : normalizeZone zone ∉ p.zones) : p.removeZone f time zone =
      (p.writeConfigOrFail f time).andThen (matchProcessToZones f) := by
  have hsame : p.zones.filter (· ≠ normalizeZone zone) = p.zones := by
    rw [List.filter_eq_self]
    intro z hz
    simp only [decide_eq_true_eq]
    rintro rfl
    exact habsent hz
  rw [removeZone, hlocal, hserves, hsame, applyZones_self]
  rfl

/-- Without faults the write and the restart are done whatever the files are. -/
theorem sameEffect_removeZone {p' : Provider} (hlocal : isLocalOnly zone = false)
    (hserves : p.servesPublicZones = true) (habsent : normalizeZone zone ∉ p.zones)
    (hbind : p'.bindIp = p.bindIp) (hzones : p'.zones = p.zones) (hrecords : p'.records = p.records)
    (hcoredns : p'.coredns = p.coredns) (time : Nat) :
    (p'.removeZone .none time zone).SameEffect (p.removeZone .none time zone) := by
  have hserves' : p'.servesPublicZones = true := by
    rw [servesPublicZones, hbind]
    exact hserves
  rw [removeZone_of_absent hlocal hserves habsent,
    removeZone_of_absent hlocal hserves' (by rw [hzones]; exact habsent),
    writeConfigOrFail_of_none (bound_of_servesPublicZones hserves) rfl,
    writeConfigOrFail_of_none (bound_of_servesPublicZones hserves') rfl,
    andThen_of_returned rfl, andThen_of_returned rfl]
  refine ⟨?_, ?_, ?_, ?_⟩
  · rw [raised_matchProcessToZones, raised_matchProcessToZones]
  · have hcorefile : (p'.writeConfig time).corefileZones = (p.writeConfig time).corefileZones := by
      rw [(rendered_writeConfig (bound_of_servesPublicZones hserves) time).corefileZones,
        (rendered_writeConfig (bound_of_servesPublicZones hserves') time).corefileZones]
      simp [hzones]
    have heffects : ((p'.writeConfig time).matchProcessToZones .none).effects =
        ((p.writeConfig time).matchProcessToZones .none).effects :=
      effects_matchProcessToZones (by simp [hzones]) hcorefile (by simp [hcoredns])
    dsimp only
    rw [heffects, hzones, hrecords]
  · dsimp only
    rw [zones_matchProcessToZones, zones_matchProcessToZones]
    simp [hzones]
  · dsimp only
    rw [records_matchProcessToZones, records_matchProcessToZones]
    simp [hrecords]

/-! ## The operations -/

theorem kept_addZone_iff (hraised : (p.addZone f time zone).raised ≠ none) :
    Kept f time p (.addZone zone) ↔ Harmless f p (.addZone zone) := by
  unfold addZone at hraised
  split at hraised
  · exact absurd rfl hraised
  rename_i hlocal
  split at hraised
  · -- refused before anything has been changed
    rename_i hserves
    have hrun : (DnsCall.addZone zone).run f time p = ⟨p, [], some .notEnabled⟩ := by
      simp only [DnsCall.run, addZone]
      rw [if_neg hlocal, if_pos hserves]
    unfold Kept
    rw [hrun]
    constructor
    · intro h
      exact ⟨h.2.2.1, Or.inl ⟨zone, rfl, by simpa using hserves⟩⟩
    · intro h
      exact ⟨rfl, rfl, h.1, fun _ => ⟨rfl, rfl, rfl, rfl⟩⟩
  rename_i hserves
  split at hraised
  · exact absurd rfl hraised
  rename_i hpresent
  refine iff_of_false ?_ ?_
  · -- the zone has been added in memory
    intro h
    have hzones := h.1
    simp only [DnsCall.run, addZone] at hzones
    rw [if_neg hlocal, if_neg hserves, if_neg hpresent, zones_applyZones] at hzones
    simp at hzones
  · rintro ⟨-, ⟨zone', -, hnot⟩ | ⟨zone', hcall, -⟩⟩
    · rw [hnot] at hserves
      exact hserves rfl
    · cases hcall

theorem kept_removeZone_iff (hraised : (p.removeZone f time zone).raised ≠ none) :
    Kept f time p (.removeZone zone) ↔ Harmless f p (.removeZone zone) := by
  have hchecks : isLocalOnly zone = false ∧ p.servesPublicZones = true := by
    unfold removeZone at hraised
    split at hraised
    · exact absurd rfl hraised
    · rename_i h
      simpa using h
  obtain ⟨hlocal, hserves⟩ := hchecks
  by_cases habsent : normalizeZone zone ∈ p.zones
  · refine iff_of_false ?_ ?_
    · intro h
      have hzones := h.1
      simp only [DnsCall.run, removeZone] at hzones
      rw [hlocal, hserves, Bool.not_true, Bool.or_false, if_neg Bool.false_ne_true, zones_applyZones,
        List.filter_eq_self] at hzones
      simpa using hzones _ habsent
    · rintro ⟨-, ⟨zone', hcall, -⟩ | ⟨zone', hcall, hnot, -⟩⟩
      · cases hcall
      · cases hcall
        exact hnot habsent
  have hbound := bound_of_servesPublicZones hserves
  have hrun : (DnsCall.removeZone zone).run f time p =
      (p.writeConfigOrFail f time).andThen (matchProcessToZones f) :=
    removeZone_of_absent hlocal hserves habsent
  cases hwrite : f.write with
  | some damage =>
    rw [writeConfigOrFail_of_damage hbound hwrite, andThen_of_raised rfl] at hrun
    unfold Kept
    rw [hrun]
    constructor
    · intro h
      exact ⟨h.2.2.1, Or.inr ⟨zone, rfl, habsent, by rw [hwrite]; rfl⟩⟩
    · intro h
      exact ⟨rfl, rfl, h.1, sameEffect_removeZone hlocal hserves habsent rfl rfl rfl rfl⟩
  | none =>
    -- what has failed is the start of CoreDNS
    refine iff_of_false ?_ ?_
    · intro h
      have hmatched := h.2.2.1
      rw [removeZone_of_absent hlocal hserves habsent, writeConfigOrFail_of_none hbound hwrite,
        andThen_of_returned rfl] at hraised
      rw [hrun, writeConfigOrFail_of_none hbound hwrite, andThen_of_returned rfl] at hmatched
      exact not_matched_of_raised hraised hmatched
    · rintro ⟨-, ⟨zone', hcall, -⟩ | ⟨zone', hcall, -, hdamage⟩⟩
      · cases hcall
      · rw [hwrite] at hdamage
        cases hdamage

section

variable {name : String} {type : RecordType} {values : List String} {ttl : Int}

theorem setRecordsOrFail_of_set
    (h : p.records.get (name, type) = some (rrset name type values ttl)) :
    p.setRecordsOrFail f time name type values ttl = ⟨p, [], none⟩ := by
  rw [setRecordsOrFail, if_pos h]

theorem setRecordsOrFail_of_changed
    (h : p.records.get (name, type) ≠ some (rrset name type values ttl)) :
    p.setRecordsOrFail f time name type values ttl = { p with
      records := p.records.set name type values ttl }.writeConfigOrFail f time := by
  rw [setRecordsOrFail, if_neg h]

theorem deleteRecordsOrFail_of_absent (h : p.records.get (name, type) = none) :
    p.deleteRecordsOrFail f time name type = ⟨p, [], none⟩ := by
  rw [deleteRecordsOrFail, h]

theorem deleteRecordsOrFail_of_present {old : List DnsRecord}
    (h : p.records.get (name, type) = some old) : p.deleteRecordsOrFail f time name type =
      { p with records := p.records.pop (name, type) }.writeConfigOrFail f time := by
  rw [deleteRecordsOrFail, h]

theorem not_kept_setRecords
    (hraised : (p.setRecordsOrFail f time name type values ttl).raised ≠ none) :
    ¬ Kept f time p (.setRecords name type values ttl) := by
  intro h
  by_cases hset : p.records.get (name, type) = some (rrset name type values ttl)
  · rw [setRecordsOrFail_of_set hset] at hraised
    exact hraised rfl
  rw [setRecordsOrFail_of_changed hset] at hraised
  obtain ⟨hbound, damage, hwrite⟩ := write_of_raised hraised
  have heffects := (h.2.2.2 0).2.1
  unfold DnsCall.run at heffects
  dsimp only at heffects
  -- the records are in memory already, so the second call returns at once
  rw [setRecordsOrFail_of_changed hset, setRecordsOrFail_of_changed hset,
    writeConfigOrFail_of_damage hbound hwrite, writeConfigOrFail_of_none hbound rfl,
    setRecordsOrFail_of_set (by simp)] at heffects
  simp at heffects

theorem not_kept_deleteRecords (hraised : (p.deleteRecordsOrFail f time name type).raised ≠ none) :
    ¬ Kept f time p (.deleteRecords name type) := by
  intro h
  cases hget : p.records.get (name, type) with
  | none =>
    rw [deleteRecordsOrFail_of_absent hget] at hraised
    exact hraised rfl
  | some old =>
    rw [deleteRecordsOrFail_of_present hget] at hraised
    obtain ⟨hbound, damage, hwrite⟩ := write_of_raised hraised
    have heffects := (h.2.2.2 0).2.1
    unfold DnsCall.run at heffects
    dsimp only at heffects
    -- the records are gone from memory already
    rw [deleteRecordsOrFail_of_present hget, deleteRecordsOrFail_of_present hget,
      writeConfigOrFail_of_damage hbound hwrite, writeConfigOrFail_of_none hbound rfl,
      deleteRecordsOrFail_of_absent (by simp)] at heffects
    simp at heffects

end

end Provider

/-- A call that raises leaves zones, records and process as it has found them, and can be repeated,
exactly if it is harmless: it was refused, or it failed to write for a zone that was not there. -/
theorem kept_iff_harmless (f : Faults) (time : Nat) (p : Provider) (call : DnsCall)
    (hraised : (call.run f time p).raised ≠ none) : Kept f time p call ↔ Harmless f p call := by
  cases call with
  | addZone zone => exact Provider.kept_addZone_iff hraised
  | removeZone zone => exact Provider.kept_removeZone_iff hraised
  | setRecords name type values ttl =>
    refine iff_of_false (Provider.not_kept_setRecords hraised) ?_
    rintro ⟨-, ⟨zone, hcall, -⟩ | ⟨zone, hcall, -⟩⟩ <;> cases hcall
  | deleteRecords name type =>
    refine iff_of_false (Provider.not_kept_deleteRecords hraised) ?_
    rintro ⟨-, ⟨zone, hcall, -⟩ | ⟨zone, hcall, -⟩⟩ <;> cases hcall

/-! ### One failure of each kind -/

/-- Without an address to serve on the call is refused, and nothing has changed. -/
theorem kept_notEnabled :
    Kept .none 0 (freshProvider none) (.addZone "host.example.com") := by
  have hrun : ((DnsCall.addZone "host.example.com").run .none 0 (freshProvider none)).raised =
      some .notEnabled := by
    simp [DnsCall.run, Provider.addZone, notLocalOnly_host, Provider.servesPublicZones, freshProvider]
  refine (kept_iff_harmless .none 0 (freshProvider none) _ (by simp [hrun])).mpr ⟨?_, Or.inl ⟨_, rfl, rfl⟩⟩
  simp [Provider.Matched, freshProvider]

/-- CoreDNS fails to start for the first zone: the zone is in memory, and adding it once more returns
at once. -/
theorem failed_start_not_kept :
    ¬ ∀ f time p call, (DnsCall.run f time p call).raised ≠ none → Kept f time p call := by
  intro h
  have hadd (f : Faults) : (DnsCall.addZone "host.example.com").run f 0 (freshProvider (some "10.0.0.2"))
      = (freshProvider (some "10.0.0.2")).applyZones f 0 [normalizeZone "host.example.com"] := by
    simp [DnsCall.run, Provider.addZone, notLocalOnly_host, Provider.servesPublicZones, freshProvider]
  have hraised : ((DnsCall.addZone "host.example.com").run ⟨none, none, true⟩ 0
      (freshProvider (some "10.0.0.2"))).raised ≠ none := by
    rw [hadd]
    exact fun h => by cases h
  have hzones := (h _ _ _ _ hraised).1
  rw [hadd, Provider.zones_applyZones] at hzones
  cases hzones

end OpenHost.Dns
