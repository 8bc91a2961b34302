import Mathlib.Data.List.DropRight
import OpenHost.Dns.Provider
import OpenHost.Library.Runs

/-!
# Schedules of the DNS provider

Calls of the provider's operations as they interleave on one event loop.  A zone change waits for the
zone lock, which an `asyncio.Lock` hands out in the order of arrival; with the lock it changes the
memory and the files at once, and suspends only where CoreDNS is stopped and started.  Changes of
records never suspend, and come at any of these places.

The calls that do not take the lock, of local-only names or without an address to serve on, change
nothing.
-/

namespace OpenHost.Dns

/-! ## Zone changes -/

/-- A zone change that has passed the checks before the lock. -/
inductive ZoneChange where
  | add (name : String)
  | remove (name : String)
  deriving DecidableEq, Repr

namespace ZoneChange

def name : ZoneChange → String
  | add name => name
  | remove name => name

/-- What the change makes of the zones. -/
def apply (c : ZoneChange) (zones : List String) : List String :=
  match c with
  | add name => if name ∈ zones then zones else zones ++ [name]
  | remove name => zones.filter (· ≠ name)

/-- The zones after the changes, in order. -/
def applyAll (zones : List String) (cs : List ZoneChange) : List String :=
  cs.foldl (fun zones c => c.apply zones) zones

/-- The last change of a name. -/
def last (z : String) (cs : List ZoneChange) : Option ZoneChange := cs.reverse.find? (·.name = z)

theorem applyAll_concat (zones : List String) (cs : List ZoneChange) (c : ZoneChange) :
    applyAll zones (cs ++ [c]) = c.apply (applyAll zones cs) := by
  simp [applyAll]

theorem nodup_apply {zones : List String} (c : ZoneChange) (h : zones.Nodup) :
    (c.apply zones).Nodup := by
  cases c with
  | add name =>
    rw [apply]
    split
    · exact h
    · rename_i hnew
      rw [List.nodup_append]
      refine ⟨h, by simp, ?_⟩
      intro z hz z' hz' heq
      rw [List.mem_singleton.mp hz'] at heq
      exact hnew (heq ▸ hz)
  | remove name => exact h.filter _

theorem nodup_applyAll (cs : List ZoneChange) : (applyAll [] cs).Nodup := by
  induction cs using List.reverseRecOn with
  | nil => exact List.nodup_nil
  | append_singleton cs c ih =>
    rw [applyAll_concat]
    exact nodup_apply c ih

theorem mem_apply_iff {zones : List String} (c : ZoneChange) (z : String) :
    z ∈ c.apply zones ↔ if c.name = z then c = add z else z ∈ zones := by
  cases c with
  | add name =>
    rw [apply, ZoneChange.name]
    by_cases h : name = z
    · subst h
      by_cases hmem : name ∈ zones
      · simp [hmem]
      · simp [hmem]
    · by_cases hmem : name ∈ zones
      · simp [h, hmem]
      · simp [h, hmem, Ne.symm h]
  | remove name =>
    rw [apply, ZoneChange.name]
    by_cases h : name = z
    · simp [h]
    · simp [h, Ne.symm h]

/-- A zone is there exactly if the last change of its name has added it. -/
theorem mem_applyAll_iff (cs : List ZoneChange) (z : String) :
    z ∈ applyAll [] cs ↔ last z cs = some (add z) := by
  induction cs using List.reverseRecOn with
  | nil => simp [applyAll, last]
  | append_singleton cs c ih =>
    rw [applyAll_concat, mem_apply_iff, last, List.reverse_append, List.reverse_singleton,
      List.singleton_append]
    by_cases h : c.name = z
    · rw [if_pos h, List.find?_cons_of_pos (by simpa using h), Option.some.injEq]
    · rw [if_neg h, List.find?_cons_of_neg (by simpa using h), ih, last]

end ZoneChange

/-! ## The event loop -/

/-- Where the change that holds the lock awaits CoreDNS. -/
inductive Stage where
  /-- `cleanup` -/
  | stopping
  /-- `CoreDnsProcess.start`, without a process -/
  | starting
  /-- `restart`, while the old process stops -/
  | restarting
  /-- `restart`, while the new one starts -/
  | respawning
  deriving DecidableEq, Repr

structure Schedule where
  provider : Provider
  /-- The changes that wait for the lock, in the order of arrival. -/
  waiting : List ZoneChange
  /-- The change that holds the lock. -/
  holder : Option (ZoneChange × Stage)
  /-- The changes that have returned, in the order in which they took the lock. -/
  completed : List ZoneChange

inductive DnsAction where
  | addZone (zone : String)
  | removeZone (zone : String)
  /-- The first change that waits takes the lock. -/
  | take (time : Nat)
  /-- What the holder awaits has happened. -/
  | proceed
  | setRecords (time : Nat) (name : String) (type : RecordType) (values : List String) (ttl : Int)
  | deleteRecords (time : Nat) (name : String) (type : RecordType)
  deriving DecidableEq, Repr

namespace Schedule

/-- The holder returns, and the lock is free. -/
def complete (s : Schedule) (c : ZoneChange) : Schedule :=
  { s with holder := none, completed := s.completed ++ [c] }

/-- `_match_process_to_zones`, up to its first `await`. -/
def matchProcess (s : Schedule) (c : ZoneChange) : Schedule :=
  if s.provider.zones = [] then
    if s.provider.coredns = none then s.complete c else { s with holder := some (c, .stopping) }
  else
    if s.provider.coredns = none then { s with holder := some (c, .starting) }
    else { s with holder := some (c, .restarting) }

/-- `_apply_zones`, up to its first `await`. -/
def applyZones (s : Schedule) (time : Nat) (c : ZoneChange) (zones : List String) : Schedule :=
  { s with provider := (s.provider.moveZones zones).writeConfig time }.matchProcess c

/-- The body of `async with self._zone_lock`, up to its first `await`. -/
def takeLock (s : Schedule) (time : Nat) (c : ZoneChange) : Schedule :=
  match c with
  | .add name =>
      -- already authoritative for it
      if name ∈ s.provider.zones then s.complete c
      else s.applyZones time c (s.provider.zones ++ [name])
  | .remove name => s.applyZones time c (s.provider.zones.filter (· ≠ name))

/-- What comes after the `await`. -/
def proceed (s : Schedule) (c : ZoneChange) : Stage → Schedule
  | .stopping => { s with provider := { s.provider with coredns := none } }.complete c
  | .starting => { s with provider := s.provider.spawn }.complete c
  | .restarting =>
      { s with
        provider := { s.provider with
          coredns := s.provider.coredns.map fun process => { process with running := false } }
        holder := some (c, .respawning) }
  | .respawning => { s with provider := s.provider.spawn }.complete c

/-- A step of the loop, where nothing fails. -/
def next (s : Schedule) : DnsAction → Option Schedule
  | .addZone zone =>
      if isLocalOnly zone then some s
      -- `DnsNotEnabled` is raised otherwise
      else if s.provider.servesPublicZones then
        some { s with waiting := s.waiting ++ [.add (normalizeZone zone)] }
      else none
  | .removeZone zone =>
      if isLocalOnly zone || !s.provider.servesPublicZones then some s
      else some { s with waiting := s.waiting ++ [.remove (normalizeZone zone)] }
  | .take time =>
      match s.holder, s.waiting with
      | none, c :: waiting => some ({ s with waiting := waiting }.takeLock time c)
      | _, _ => none
  | .proceed => s.holder.map fun holder => s.proceed holder.1 holder.2
  | .setRecords time name type values ttl =>
      some { s with provider := s.provider.setRecords time name type values ttl }
  | .deleteRecords time name type =>
      some { s with provider := s.provider.deleteRecords time name type }

/-- The change that holds the lock. -/
def inProgress (s : Schedule) : List ZoneChange := (s.holder.map Prod.fst).toList

/-- A provider as it is created, and nobody has called it yet. -/
structure Fresh (s : Schedule) : Prop where
  zones : s.provider.zones = []
  records : s.provider.records = .empty
  coredns : s.provider.coredns = none
  waiting : s.waiting = []
  holder : s.holder = none
  completed : s.completed = []

end Schedule

def scheduleStep (s : Schedule) (a : DnsAction) (s' : Schedule) : Prop := s.next a = some s'

/-! ## The files -/

namespace Provider

/-- What has been written is what is in memory; or nothing has been written since the start, and there
is nothing to write. -/
structure Filed (start p : Provider) : Prop where
  rendered : p.bound = true →
    p.Rendered ∨ p.disk = start.disk ∧ p.zones = [] ∧ p.records = .empty
  unbound : p.bound = false → p.disk = start.disk

variable {start p p' : Provider}

/-- The process does not bear on the files. -/
theorem Filed.withProcess (h : Filed start p) (coredns : Option CoreDnsProcess) :
    Filed start { p with coredns := coredns } where
  rendered hbound := (h.rendered hbound).imp (fun hr => ⟨hr.corefile, hr.zoneFile⟩) id
  unbound := h.unbound

/-- A change in memory that is written. -/
theorem filed_writeConfig (h : p.bound = false → p.disk = start.disk) (time : Nat) :
    Filed start (p.writeConfig time) where
  rendered hbound := by
    rw [bound_writeConfig] at hbound
    exact Or.inl (rendered_writeConfig hbound time)
  unbound hbound := by
    rw [bound_writeConfig] at hbound
    rw [writeConfig_of_not_bound hbound]
    exact h hbound

theorem filed_setRecords (h : Filed start p) (time : Nat) (name : String) (type : RecordType)
    (values : List String) (ttl : Int) : Filed start (p.setRecords time name type values ttl) := by
  unfold setRecords
  split
  · exact h
  · apply filed_writeConfig
    exact h.unbound

theorem filed_deleteRecords (h : Filed start p) (time : Nat) (name : String) (type : RecordType) :
    Filed start (p.deleteRecords time name type) := by
  unfold deleteRecords
  split
  · exact h
  · apply filed_writeConfig
    exact h.unbound

/-- Where there are zones, they have been written. -/
theorem Filed.rendered_of_zones (h : Filed start p) (hbound : p.bound = true) (hzones : p.zones ≠ []) :
    p.Rendered :=
  (h.rendered hbound).resolve_right fun hunwritten => hzones hunwritten.2.1

/-- CoreDNS serves the zones once it has been started on the files. -/
theorem matched_spawn (h : p.Rendered) (hzones : p.zones ≠ []) : p.spawn.Matched := by
  have hspawned : p.spawn.zones = p.zones := rfl
  unfold Matched
  rw [hspawned, if_neg hzones]
  exact ⟨_, rfl, rfl, h.corefileZones⟩

end Provider

/-! ## What every step preserves -/

namespace Schedule

/-- CoreDNS matches the zones, or the holder is about to see to it. -/
def ProcessAt (s : Schedule) : Prop :=
  match s.holder with
  | none => s.provider.Matched
  | some (_, .stopping) => s.provider.zones = []
  | some _ => s.provider.zones ≠ []

/-- The invariant of a schedule that has begun with the provider `start`. -/
structure Inv (start : Provider) (s : Schedule) : Prop where
  zones : s.provider.zones = ZoneChange.applyAll [] (s.completed ++ s.inProgress)
  files : Provider.Filed start s.provider
  process : s.ProcessAt
  serves : s.waiting ≠ [] ∨ s.holder ≠ none → s.provider.servesPublicZones = true

variable {start : Provider} {s s' : Schedule} {c : ZoneChange}

theorem bound_of_serves {p : Provider} (h : p.servesPublicZones = true) : p.bound = true := by
  unfold Provider.servesPublicZones at h
  rw [Provider.bound, h, Bool.true_or]

/-- The holder returns with a process that matches the zones. -/
theorem inv_complete (hzones : s.provider.zones = ZoneChange.applyAll [] (s.completed ++ [c]))
    (hfiles : Provider.Filed start s.provider) (hmatched : s.provider.Matched)
    (hserves : s.waiting ≠ [] → s.provider.servesPublicZones = true) : Inv start (s.complete c) where
  zones := by
    unfold inProgress complete
    simpa using hzones
  files := hfiles
  process := hmatched
  serves h := h.elim hserves fun hholder => absurd rfl hholder

/-- The holder goes on to wait for CoreDNS. -/
theorem inv_wait (stage : Stage)
    (hzones : s.provider.zones = ZoneChange.applyAll [] (s.completed ++ [c]))
    (hfiles : Provider.Filed start s.provider)
    (hprocess : { s with holder := some (c, stage) }.ProcessAt)
    (hserves : s.provider.servesPublicZones = true) :
    Inv start { s with holder := some (c, stage) } where
  zones := hzones
  files := hfiles
  process := hprocess
  serves _ := hserves

theorem inv_matchProcess (hzones : s.provider.zones = ZoneChange.applyAll [] (s.completed ++ [c]))
    (hfiles : Provider.Filed start s.provider) (hserves : s.provider.servesPublicZones = true) :
    Inv start (s.matchProcess c) := by
  unfold matchProcess
  by_cases hempty : s.provider.zones = []
  · rw [if_pos hempty]
    by_cases hcoredns : s.provider.coredns = none
    · rw [if_pos hcoredns]
      apply inv_complete hzones hfiles _ fun _ => hserves
      rw [Provider.Matched, if_pos hempty, hcoredns]
      simp
    · rw [if_neg hcoredns]
      exact inv_wait .stopping hzones hfiles hempty hserves
  · rw [if_neg hempty]
    split
    · exact inv_wait .starting hzones hfiles hempty hserves
    · exact inv_wait .restarting hzones hfiles hempty hserves

/-- The change is made in memory and on disk as soon as the lock is taken. -/
theorem inv_takeLock (h : Inv start s) (hholder : s.holder = none)
    (hserves : s.provider.servesPublicZones = true) (time : Nat) : Inv start (s.takeLock time c) := by
  have hcompleted : s.provider.zones = ZoneChange.applyAll [] s.completed := by
    have hzones := h.zones
    rw [inProgress, hholder] at hzones
    simpa using hzones
  have happly : ∀ zones, zones = c.apply s.provider.zones → Inv start (s.applyZones time c zones) := by
    intro zones hzones
    apply inv_matchProcess
    · rw [Provider.zones_writeConfig, ZoneChange.applyAll_concat, ← hcompleted]
      exact hzones
    · refine Provider.filed_writeConfig (fun hunbound => ?_) time
      have hbound : s.provider.bound = true := bound_of_serves hserves
      have hsame : (s.provider.moveZones zones).bound = s.provider.bound := rfl
      rw [hsame, hbound] at hunbound
      cases hunbound
    · rw [Provider.servesPublicZones, Provider.bindIp_writeConfig]
      exact hserves
  unfold takeLock
  cases c with
  | add name =>
    dsimp only
    split
    · -- the zone is there already
      rename_i hmem
      have hmatched : s.provider.Matched := by
        have hprocess := h.process
        rw [ProcessAt, hholder] at hprocess
        exact hprocess
      refine inv_complete ?_ h.files hmatched fun hwaiting => hserves
      rw [ZoneChange.applyAll_concat, ← hcompleted, ZoneChange.apply, if_pos hmem]
    · rename_i hmem
      apply happly
      rw [ZoneChange.apply, if_neg hmem]
  | remove name => exact happly _ rfl

theorem inv_proceed {stage : Stage} (h : Inv start s) (hholder : s.holder = some (c, stage)) :
    Inv start (s.proceed c stage) := by
  have hserves : s.provider.servesPublicZones = true := h.serves (Or.inr (by simp [hholder]))
  have hzones : s.provider.zones = ZoneChange.applyAll [] (s.completed ++ [c]) := by
    have hzones := h.zones
    rw [inProgress, hholder] at hzones
    exact hzones
  have hprocess := h.process
  rw [ProcessAt, hholder] at hprocess
  have hspawn : s.provider.zones ≠ [] →
      Inv start ({ s with provider := s.provider.spawn }.complete c) := by
    intro hne
    have hrendered := h.files.rendered_of_zones (bound_of_serves hserves) hne
    exact inv_complete hzones (h.files.withProcess _) (Provider.matched_spawn hrendered hne)
      fun _ => hserves
  cases stage with
  | stopping =>
    refine inv_complete hzones (h.files.withProcess _) ?_ fun _ => hserves
    rw [Provider.Matched, if_pos hprocess]
    simp
  | starting => exact hspawn hprocess
  | restarting =>
    exact {
      zones := hzones
      files := h.files.withProcess _
      process := hprocess
      serves := fun _ => hserves }
  | respawning => exact hspawn hprocess

/-- A change of the records leaves zones and process as they are. -/
theorem inv_records {p : Provider} (h : Inv start s) (hfiles : Provider.Filed start p)
    (hzones : p.zones = s.provider.zones) (hcoredns : p.coredns = s.provider.coredns)
    (hserves : p.servesPublicZones = s.provider.servesPublicZones) :
    Inv start { s with provider := p } where
  zones := hzones.trans h.zones
  files := hfiles
  process := by
    have hprocess := h.process
    unfold ProcessAt Provider.Matched at hprocess ⊢
    dsimp only
    rw [hzones, hcoredns]
    exact hprocess
  serves hwaiting := by
    rw [hserves]
    exact h.serves hwaiting

theorem inv_next {a : DnsAction} (h : Inv start s) (hnext : s.next a = some s') : Inv start s' := by
  have henqueue : ∀ c : ZoneChange, s.provider.servesPublicZones = true →
      Inv start { s with waiting := s.waiting ++ [c] } := fun c hserves =>
    ⟨h.zones, h.files, h.process, fun _ => hserves⟩
  cases a with
  | addZone zone =>
    rw [next] at hnext
    split at hnext
    · cases hnext
      exact h
    · split at hnext
      · rename_i hserves
        cases hnext
        exact henqueue _ hserves
      · cases hnext
  | removeZone zone =>
    rw [next] at hnext
    split at hnext
    · cases hnext
      exact h
    · rename_i hchecks
      cases hnext
      apply henqueue
      simp only [Bool.or_eq_true, Bool.not_eq_true', not_or, Bool.not_eq_false] at hchecks
      exact hchecks.2
  | take time =>
    rw [next] at hnext
    cases hholder : s.holder with
    | some holder =>
      rw [hholder] at hnext
      cases hnext
    | none =>
      cases hwaiting : s.waiting with
      | nil =>
        rw [hholder, hwaiting] at hnext
        cases hnext
      | cons c waiting =>
        rw [hholder, hwaiting] at hnext
        cases hnext
        have hserves := h.serves (Or.inl (by simp [hwaiting]))
        have hs : (⟨s.provider, waiting, none, s.completed⟩ : Schedule) =
            { s with waiting := waiting } := by rw [← hholder]
        rw [hs]
        refine inv_takeLock (s := { s with waiting := waiting }) ?_ hholder hserves time
        exact ⟨h.zones, h.files, h.process, fun _ => hserves⟩
  | proceed =>
    obtain ⟨⟨c, stage⟩, hholder, rfl⟩ := Option.map_eq_some_iff.mp hnext
    exact inv_proceed h hholder
  | setRecords time name type values ttl =>
    cases hnext
    refine inv_records h (Provider.filed_setRecords h.files time name type values ttl) (by simp)
      (by simp) ?_
    rw [Provider.servesPublicZones, Provider.servesPublicZones, Provider.bindIp_setRecords]
  | deleteRecords time name type =>
    cases hnext
    refine inv_records h (Provider.filed_deleteRecords h.files time name type) (by simp) (by simp) ?_
    rw [Provider.servesPublicZones, Provider.servesPublicZones, Provider.bindIp_deleteRecords]

theorem inv_of_fresh (h : s.Fresh) : Inv s.provider s where
  zones := by
    rw [inProgress, h.holder, h.completed, h.zones]
    rfl
  files := ⟨fun _ => Or.inr ⟨rfl, h.zones, h.records⟩, fun _ => rfl⟩
  process := by
    rw [ProcessAt, h.holder]
    dsimp only
    rw [Provider.Matched, if_pos h.zones, h.coredns]
    simp
  serves hwaiting := by
    rw [h.waiting, h.holder] at hwaiting
    simp at hwaiting

end Schedule

/-! ## Arrivals -/

/-- The calls that come from outside; the other actions are turns of the loop itself, and changes of
records. -/
def DnsAction.isCall : DnsAction → Bool
  | .addZone _ | .removeZone _ => true
  | _ => false

theorem rstrip_normalizeZone (zone : String) :
    Text.rstrip '.' (normalizeZone zone) = normalizeZone zone := by
  have hdot : (fun c => decide (c = '.')) ∘ Text.lowerChar = fun c => decide (c = '.') := by
    funext c
    simp [Text.lowerChar_eq_dot_iff]
  -- lower case moves no dot, and behind the last one that is stripped there is none
  rw [← String.toList_inj]
  simp only [normalizeZone, Text.rstrip, Text.toList_lower, String.toList_ofList, ← List.map_reverse,
    List.reverse_reverse, List.dropWhile_map, hdot, List.dropWhile_idempotent (p := fun c => decide (c = '.'))]

namespace Schedule

variable {s s' : Schedule} {c : ZoneChange}

/-- The changes that have come, in the order of arrival. -/
def arrived (s : Schedule) : List ZoneChange := s.completed ++ s.inProgress ++ s.waiting

theorem arrived_matchProcess (s : Schedule) (c : ZoneChange) :
    (s.matchProcess c).arrived = s.completed ++ c :: s.waiting := by
  unfold matchProcess
  split
  · split
    · simp [arrived, inProgress, complete]
    · simp [arrived, inProgress]
  · split
    · simp [arrived, inProgress]
    · simp [arrived, inProgress]

theorem arrived_takeLock (s : Schedule) (time : Nat) (c : ZoneChange) :
    (s.takeLock time c).arrived = s.completed ++ c :: s.waiting := by
  unfold takeLock
  cases c with
  | add name =>
    dsimp only
    split
    · simp [arrived, inProgress, complete]
    · exact arrived_matchProcess _ _
  | remove name => exact arrived_matchProcess _ _

theorem arrived_proceed {stage : Stage} (hholder : s.holder = some (c, stage)) :
    (s.proceed c stage).arrived = s.arrived := by
  cases stage with
  | stopping => simp [proceed, arrived, inProgress, complete, hholder]
  | starting => simp [proceed, arrived, inProgress, complete, hholder]
  | restarting => simp [proceed, arrived, inProgress, hholder]
  | respawning => simp [proceed, arrived, inProgress, complete, hholder]

/-- A turn of the loop neither adds a change nor drops one. -/
theorem arrived_turn {a : DnsAction} (hturn : a.isCall = false) (hnext : s.next a = some s') :
    s'.arrived = s.arrived := by
  cases a with
  | addZone zone => cases hturn
  | removeZone zone => cases hturn
  | take time =>
    rw [next] at hnext
    split at hnext
    · rename_i hholder hwaiting
      cases hnext
      rw [arrived_takeLock, arrived, inProgress, hholder, hwaiting]
      simp
    · cases hnext
  | proceed =>
    obtain ⟨⟨c, stage⟩, hholder, rfl⟩ := Option.map_eq_some_iff.mp hnext
    exact arrived_proceed hholder
  | setRecords time name type values ttl =>
    cases hnext
    rfl
  | deleteRecords time name type =>
    cases hnext
    rfl

theorem arrived_addZone {zone : String} (hnext : s.next (.addZone zone) = some s') :
    s'.arrived = if isLocalOnly zone then s.arrived else s.arrived ++ [.add (normalizeZone zone)] := by
  rw [next] at hnext
  split at hnext
  · rename_i hlocal
    cases hnext
    rw [if_pos hlocal]
  · rename_i hlocal
    split at hnext
    · cases hnext
      rw [if_neg hlocal]
      simp [arrived, inProgress]
    · cases hnext

theorem arrived_removeZone {zone : String} (hnext : s.next (.removeZone zone) = some s') :
    s'.arrived = if isLocalOnly zone || !s.provider.servesPublicZones then s.arrived
      else s.arrived ++ [.remove (normalizeZone zone)] := by
  rw [next] at hnext
  split at hnext
  · rename_i hchecks
    cases hnext
    rw [if_pos hchecks]
  · rename_i hchecks
    cases hnext
    rw [if_neg hchecks]
    simp [arrived, inProgress]

/-- The names of the changes that have come end in no dot. -/
theorem rstrip_of_arrived {a : DnsAction} (h : ∀ c ∈ s.arrived, Text.rstrip '.' c.name = c.name)
    (hnext : s.next a = some s') : ∀ c ∈ s'.arrived, Text.rstrip '.' c.name = c.name := by
  have hcall : ∀ (zone : String) (c : ZoneChange) (skips : Bool), c.name = normalizeZone zone →
      s'.arrived = (if skips then s.arrived else s.arrived ++ [c]) →
      ∀ c ∈ s'.arrived, Text.rstrip '.' c.name = c.name := by
    intro zone c skips hname harrived c' hc'
    rw [harrived] at hc'
    split at hc'
    · exact h c' hc'
    · rcases List.mem_append.mp hc' with hc' | hc'
      · exact h c' hc'
      · rw [List.mem_singleton.mp hc', hname]
        exact rstrip_normalizeZone zone
  by_cases hturn : a.isCall = false
  · rw [arrived_turn hturn hnext]
    exact h
  · cases a with
    | addZone zone => exact hcall zone (.add (normalizeZone zone)) _ rfl (arrived_addZone hnext)
    | removeZone zone =>
      exact hcall zone (.remove (normalizeZone zone)) _ rfl (arrived_removeZone hnext)
    | take time => exact absurd rfl hturn
    | proceed => exact absurd rfl hturn
    | setRecords time name type values ttl => exact absurd rfl hturn
    | deleteRecords time name type => exact absurd rfl hturn

theorem length_completed_matchProcess (s : Schedule) (c : ZoneChange) :
    s.completed.length ≤ (s.matchProcess c).completed.length := by
  unfold matchProcess
  split
  · split <;> simp [complete]
  · split <;> simp

theorem provider_matchProcess (s : Schedule) (c : ZoneChange) :
    (s.matchProcess c).provider = s.provider := by
  unfold matchProcess
  split
  · split <;> rfl
  · split <;> rfl

theorem length_completed_takeLock (s : Schedule) (time : Nat) (c : ZoneChange) :
    s.completed.length ≤ (s.takeLock time c).completed.length := by
  have happly : ∀ zones, s.completed.length ≤ (s.applyZones time c zones).completed.length :=
    fun zones => length_completed_matchProcess
      { s with provider := (s.provider.moveZones zones).writeConfig time } c
  unfold takeLock
  cases c with
  | add name =>
    dsimp only
    split
    · simp [complete]
    · exact happly _
  | remove name => exact happly _

/-- What has returned stays so. -/
theorem length_completed_next {a : DnsAction} (hnext : s.next a = some s') :
    s.completed.length ≤ s'.completed.length := by
  cases a with
  | addZone zone =>
    rw [next] at hnext
    split at hnext
    · cases hnext
      exact le_rfl
    · split at hnext
      · cases hnext
        exact le_rfl
      · cases hnext
  | removeZone zone =>
    rw [next] at hnext
    split at hnext
    · cases hnext
      exact le_rfl
    · cases hnext
      exact le_rfl
  | take time =>
    rw [next] at hnext
    split at hnext
    · rename_i c waiting _ _
      cases hnext
      exact length_completed_takeLock { s with waiting := waiting } time c
    · cases hnext
  | proceed =>
    obtain ⟨⟨c, stage⟩, -, rfl⟩ := Option.map_eq_some_iff.mp hnext
    cases stage <;> simp [proceed, complete]
  | setRecords time name type values ttl =>
    cases hnext
    exact le_rfl
  | deleteRecords time name type =>
    cases hnext
    exact le_rfl

theorem bindIp_takeLock (s : Schedule) (time : Nat) (c : ZoneChange) :
    (s.takeLock time c).provider.bindIp = s.provider.bindIp := by
  have happly : ∀ zones, (s.applyZones time c zones).provider.bindIp = s.provider.bindIp := by
    intro zones
    rw [applyZones, provider_matchProcess, Provider.bindIp_writeConfig]
    rfl
  unfold takeLock
  cases c with
  | add name =>
    dsimp only
    split
    · rfl
    · exact happly _
  | remove name => exact happly _

/-- The address to serve on is fixed at the start. -/
theorem bindIp_next {a : DnsAction} (hnext : s.next a = some s') :
    s'.provider.bindIp = s.provider.bindIp := by
  cases a with
  | addZone zone =>
    rw [next] at hnext
    split at hnext
    · cases hnext
      rfl
    · split at hnext
      · cases hnext
        rfl
      · cases hnext
  | removeZone zone =>
    rw [next] at hnext
    split at hnext
    · cases hnext
      rfl
    · cases hnext
      rfl
  | take time =>
    rw [next] at hnext
    split at hnext
    · cases hnext
      exact bindIp_takeLock _ time _
    · cases hnext
  | proceed =>
    obtain ⟨⟨c, stage⟩, -, rfl⟩ := Option.map_eq_some_iff.mp hnext
    cases stage <;> rfl
  | setRecords time name type values ttl =>
    cases hnext
    simp
  | deleteRecords time name type =>
    cases hnext
    simp

end Schedule

def freshSchedule : Schedule := ⟨freshProvider (some "10.0.0.2"), [], none, []⟩

/-- The provider with its first zone in memory and on disk. -/
def firstZone : Provider :=
  ((freshProvider (some "10.0.0.2")).moveZones ["host.example.com"]).writeConfig 1

theorem reach_firstZone : Reach scheduleStep (fun _ _ => True) freshSchedule
    ⟨firstZone.spawn, [], none, [.add "host.example.com"]⟩ := by
  have hadd : freshSchedule.next (.addZone "host.example.com") =
      some { freshSchedule with waiting := [.add "host.example.com"] } := by
    simp [Schedule.next, notLocalOnly_host, normalizeZone_host, freshSchedule, freshProvider,
      Provider.servesPublicZones]
  have htake : Schedule.next { freshSchedule with waiting := [.add "host.example.com"] } (.take 1) =
      some { freshSchedule with
        provider := firstZone
        holder := some (.add "host.example.com", .starting) } := rfl
  exact .step (a := .proceed) (.step (.step .refl trivial hadd) trivial htake) trivial rfl

end OpenHost.Dns
