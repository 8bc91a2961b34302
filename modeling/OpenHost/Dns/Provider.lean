import Mathlib.Algebra.Group.Nat.Defs
import Mathlib.Logic.Function.Basic
import OpenHost.Library.Casing
import OpenHost.Library.Fields

/-!
# The DNS provider

The state of `InternalDnsProvider`, the configuration that it renders, and the parts of its operations
that do not await.  Zones and records are kept in memory; every change renders the Corefile and a file
for each zone from scratch.  What can fail, and what is awaited, comes in the modules after this one.

The text of the rendered files and the upstream resolvers of the container view are left out: a file
is what the template is given.
-/

namespace OpenHost.Dns

/-! ## Records -/

inductive RecordType where
  | a
  | txt
  deriving DecidableEq, Repr

/-- The value of the enumeration, which is a text. -/
def RecordType.text : RecordType → String
  | .a => "A"
  | .txt => "TXT"

/-- `DnsRecord` -/
structure DnsRecord where
  name : String
  type : RecordType
  ttl : Int
  data : String
  deriving DecidableEq, Repr

/-- The order of the key `(r.name, r.type, r.data)`. -/
def DnsRecord.le (r r' : DnsRecord) : Bool :=
  if r.name ≠ r'.name then r.name < r'.name
  else if r.type ≠ r'.type then r.type.text < r'.type.text
  else r.data ≤ r'.data

abbrev RecordKey := String × RecordType

/-- The record set of a name and a type. -/
def rrset (name : String) (type : RecordType) (values : List String) (ttl : Int) : List DnsRecord :=
  values.map fun v => ⟨name, type, ttl, v⟩

/-- The key that a record belongs to. -/
def DnsRecord.key (r : DnsRecord) : RecordKey := (r.name, r.type)

/-- The dictionary of the record sets, in the order in which the keys were inserted. -/
structure Records where
  entries : List (RecordKey × List DnsRecord)
  keys_nodup : (entries.map Prod.fst).Nodup
  key_of_mem : ∀ e ∈ entries, ∀ r ∈ e.2, r.key = e.1
  deriving DecidableEq

/-- `entries[key] = value`; a key that is there keeps its place. -/
def setEntry (key : RecordKey) (value : List DnsRecord) :
    List (RecordKey × List DnsRecord) → List (RecordKey × List DnsRecord)
  | [] => [(key, value)]
  | e :: es => if e.1 = key then (key, value) :: es else e :: setEntry key value es

/-- `entries.get(key)` -/
def getEntry (key : RecordKey) : List (RecordKey × List DnsRecord) → Option (List DnsRecord)
  | [] => none
  | e :: es => if e.1 = key then some e.2 else getEntry key es

section

variable {key key' : RecordKey} {value : List DnsRecord} {es : List (RecordKey × List DnsRecord)}

theorem keys_setEntry : (setEntry key value es).map Prod.fst =
    if key ∈ es.map Prod.fst then es.map Prod.fst else es.map Prod.fst ++ [key] := by
  induction es with
  | nil => rfl
  | cons e es ih =>
    rw [setEntry]
    by_cases h : e.1 = key
    · simp [h]
    · rw [if_neg h, List.map_cons, ih, List.map_cons]
      by_cases hmem : key ∈ es.map Prod.fst
      · rw [if_pos hmem, if_pos (List.mem_cons_of_mem _ hmem)]
      · rw [if_neg hmem, if_neg (by simp [Ne.symm h, hmem]), List.cons_append]

theorem mem_of_mem_setEntry {e : RecordKey × List DnsRecord} (h : e ∈ setEntry key value es) :
    e = (key, value) ∨ e ∈ es := by
  induction es with
  | nil => exact Or.inl (List.mem_singleton.mp h)
  | cons first es ih =>
    rw [setEntry] at h
    split at h
    · exact (List.mem_cons.mp h).imp id (List.mem_cons_of_mem _)
    · rcases List.mem_cons.mp h with rfl | h
      · exact Or.inr List.mem_cons_self
      · exact (ih h).imp id (List.mem_cons_of_mem _)

theorem getEntry_setEntry : getEntry key' (setEntry key value es) =
    if key = key' then some value else getEntry key' es := by
  induction es with
  | nil => rfl
  | cons e es ih =>
    rw [setEntry]
    by_cases h : e.1 = key
    · rw [if_pos h, getEntry, getEntry, h]
      by_cases h' : key = key'
      · rw [if_pos h', if_pos h']
      · rw [if_neg h', if_neg h', if_neg h']
    · rw [if_neg h, getEntry, getEntry, ih]
      by_cases h' : e.1 = key'
      · rw [if_pos h', if_pos h', if_neg fun hkey => h (h'.trans hkey.symm)]
      · rw [if_neg h', if_neg h']

theorem getEntry_filter : getEntry key' (es.filter (·.1 ≠ key)) =
    if key = key' then none else getEntry key' es := by
  induction es with
  | nil => simp [getEntry]
  | cons e es ih =>
    by_cases h : e.1 = key
    · rw [List.filter_cons_of_neg (by simpa using h), ih, getEntry, h]
      by_cases h' : key = key'
      · rw [if_pos h', if_pos h']
      · rw [if_neg h', if_neg h', if_neg h']
    · rw [List.filter_cons_of_pos (by simpa using h), getEntry, getEntry, ih]
      by_cases h' : e.1 = key'
      · rw [if_pos h', if_pos h', if_neg fun hkey => h (h'.trans hkey.symm)]
      · rw [if_neg h', if_neg h']

theorem getEntry_of_not_mem (h : key ∉ es.map Prod.fst) : getEntry key es = none := by
  induction es with
  | nil => rfl
  | cons e es ih =>
    rw [List.map_cons, List.mem_cons, not_or] at h
    rw [getEntry, if_neg (Ne.symm h.1), ih h.2]

/-- The records with a key are those of its record set. -/
theorem filter_flatMap_entries (hkeys : (es.map Prod.fst).Nodup)
    (hrecords : ∀ e ∈ es, ∀ r ∈ e.2, r.key = e.1) :
    (es.flatMap Prod.snd).filter (·.key = key) = (getEntry key es).getD [] := by
  induction es with
  | nil => rfl
  | cons e es ih =>
    rw [List.map_cons, List.nodup_cons] at hkeys
    rw [List.forall_mem_cons] at hrecords
    rw [List.flatMap_cons, List.filter_append, ih hkeys.2 hrecords.2, getEntry]
    by_cases h : e.1 = key
    · have hall : e.2.filter (·.key = key) = e.2 :=
        List.filter_eq_self.mpr fun r hr => by simp [hrecords.1 r hr, h]
      rw [if_pos h, hall, getEntry_of_not_mem (h ▸ hkeys.1)]
      exact List.append_nil _
    · have hnone : e.2.filter (·.key = key) = [] :=
        List.filter_eq_nil_iff.mpr fun r hr => by simp [hrecords.1 r hr, h]
      rw [if_neg h, hnone, List.nil_append]

end

namespace Records

/-- `self._records.get(key)` -/
def get (rs : Records) (key : RecordKey) : Option (List DnsRecord) := getEntry key rs.entries

/-- `self._records[(name, record_type)] = rrset` -/
def set (rs : Records) (name : String) (type : RecordType) (values : List String) (ttl : Int) :
    Records where
  entries := setEntry (name, type) (rrset name type values ttl) rs.entries
  keys_nodup := by
    rw [keys_setEntry]
    split
    · exact rs.keys_nodup
    · rename_i hnew
      rw [List.nodup_append]
      refine ⟨rs.keys_nodup, by simp, ?_⟩
      intro key hkey key' hkey' heq
      rw [List.mem_singleton.mp hkey'] at heq
      exact hnew (heq ▸ hkey)
  key_of_mem := by
    intro e he r hr
    rcases mem_of_mem_setEntry he with rfl | he
    · obtain ⟨v, -, rfl⟩ := List.mem_map.mp hr
      rfl
    · exact rs.key_of_mem e he r hr

/-- `self._records.pop(key, None)`, what it leaves. -/
def pop (rs : Records) (key : RecordKey) : Records where
  entries := rs.entries.filter (·.1 ≠ key)
  keys_nodup := (List.filter_sublist.map Prod.fst).nodup rs.keys_nodup
  key_of_mem e he := rs.key_of_mem e (List.mem_of_mem_filter he)

/-- The property `records`. -/
def sorted (rs : Records) : List DnsRecord := (rs.entries.flatMap Prod.snd).mergeSort DnsRecord.le

/-- No records at all. -/
def empty : Records := ⟨[], List.nodup_nil, fun _ h => absurd h List.not_mem_nil⟩

@[simp] theorem get_set (rs : Records) (name : String) (type : RecordType) (values : List String)
    (ttl : Int) (key : RecordKey) : (rs.set name type values ttl).get key =
      if (name, type) = key then some (rrset name type values ttl) else rs.get key :=
  getEntry_setEntry

@[simp] theorem get_pop (rs : Records) (key key' : RecordKey) :
    (rs.pop key).get key' = if key = key' then none else rs.get key' :=
  getEntry_filter

/-- What is reported with a key is its record set, in some order. -/
theorem filter_sorted_perm (rs : Records) (key : RecordKey) :
    (rs.sorted.filter (·.key = key)).Perm ((rs.get key).getD []) := by
  have hperm := (List.mergeSort_perm (rs.entries.flatMap Prod.snd) DnsRecord.le).filter (·.key = key)
  rw [filter_flatMap_entries rs.keys_nodup rs.key_of_mem] at hperm
  exact hperm

end Records

/-! ## Zones -/

/-- `_LOCAL_ONLY_SUFFIXES` -/
def localOnlySuffixes : List String := [".local", "lvh.me"]

/-- `_is_local_only` -/
def isLocalOnly (domain : String) : Bool :=
  localOnlySuffixes.any fun suffix => domain = suffix || Text.endsWith domain ("." ++ suffix)

/-- `normalize_zone` -/
def normalizeZone (zone : String) : String := Text.lower (Text.rstrip '.' (Text.stripBlank zone))

/-! ## The configuration on disk -/

/-- `ADDRESS_TTL_SECONDS` -/
def addressTtlSeconds : Int := 300

/-- The name of a zone's file, and of the container view's copy: any port is stripped. -/
def zonefilePath (zone : String) : String := Text.before ':' zone ++ ".zone"

def containerZonefilePath (zone : String) : String := zonefilePath zone ++ ".container"

/-- A zone with its files, as the Corefile names them. -/
structure ZoneBlock where
  domain : String
  zonefilePath : String
  containerZonefilePath : String
  deriving DecidableEq, Repr

structure Corefile where
  zones : List ZoneBlock
  bindIp : Option String
  containerGatewayIp : Option String
  deriving DecidableEq, Repr

/-- What the template `zonefile` is given. -/
structure ZoneFile where
  zoneDomain : String
  serial : Nat
  defaultTtl : Int
  records : List DnsRecord
  deriving DecidableEq, Repr

/-- What the template `zonefile_container` is given. -/
structure ContainerZoneFile where
  zoneDomain : String
  gatewayIp : String
  serial : Nat
  deriving DecidableEq, Repr

/-- The generated files; the two kinds of zone files differ in their names' endings. -/
structure Disk where
  corefile : Option Corefile
  zoneFiles : String → Option ZoneFile
  containerZoneFiles : String → Option ContainerZoneFile

/-- Write a file for each zone. -/
def writeFiles {α : Type} (path : String → String) (content : String → α) :
    List String → (String → Option α) → String → Option α
  | [], files => files
  | zone :: zones, files =>
      writeFiles path content zones (Function.update files (path zone) (some (content zone)))

/-- `write_coredns_config` -/
def writeCorednsConfig (zones : List String) (records : List DnsRecord) (serial : Nat)
    (bindIp containerGatewayIp : Option String) (disk : Disk) : Disk where
  corefile := some {
    zones := zones.map fun zone => ⟨zone, zonefilePath zone, containerZonefilePath zone⟩
    bindIp := bindIp
    containerGatewayIp := containerGatewayIp }
  zoneFiles :=
    writeFiles zonefilePath (fun zone => ⟨zone, serial, addressTtlSeconds, records⟩) zones
      disk.zoneFiles
  containerZoneFiles :=
    match containerGatewayIp with
    | none => disk.containerZoneFiles
    | some gatewayIp =>
        writeFiles containerZonefilePath (fun zone => ⟨zone, gatewayIp, serial⟩) zones
          disk.containerZoneFiles

/-- `discard_zone_files`, for each of the zones. -/
def discardZoneFiles (zones : List String) (disk : Disk) : Disk :=
  { disk with
    zoneFiles := fun path => if path ∈ zones.map zonefilePath then none else disk.zoneFiles path
    containerZoneFiles := fun path =>
      if path ∈ zones.map containerZonefilePath then none else disk.containerZoneFiles path }

/-! ## The provider -/

/-- A handle on a CoreDNS process: whether it runs, and the zones of the Corefile it was started on. -/
structure CoreDnsProcess where
  running : Bool
  zones : List String
  deriving DecidableEq, Repr

/-- `InternalDnsProvider`, with the files it has written. -/
structure Provider where
  bindIp : Option String
  containerGatewayIp : Option String
  zones : List String
  records : Records
  coredns : Option CoreDnsProcess
  serial : Nat
  disk : Disk

namespace Provider

/-- `serves_public_zones` -/
def servesPublicZones (p : Provider) : Bool := p.bindIp.isSome

/-- One of the two views is bound. -/
def bound (p : Provider) : Bool := p.bindIp.isSome || p.containerGatewayIp.isSome

/-- `_next_serial` -/
def nextSerial (p : Provider) (time : Nat) : Nat := max (p.serial + 1) time % 2 ^ 32

/-- The zones of the Corefile, which CoreDNS reads when it starts. -/
def corefileZones (p : Provider) : List String :=
  match p.disk.corefile with
  | none => []
  | some corefile => corefile.zones.map ZoneBlock.domain

/-- `CoreDnsProcess.start`, where nothing fails. -/
def spawn (p : Provider) : Provider := { p with coredns := some ⟨true, p.corefileZones⟩ }

/-- `_write_config`, where nothing fails. -/
def writeConfig (p : Provider) (time : Nat) : Provider :=
  if p.bound then
    { p with
      serial := p.nextSerial time
      disk := writeCorednsConfig p.zones p.records.sorted (p.nextSerial time) p.bindIp
        p.containerGatewayIp p.disk }
  else p

/-- The first part of `_apply_zones`: the set in memory, and the files of the zones that go. -/
def moveZones (p : Provider) (zones : List String) : Provider :=
  { p with
    zones := zones
    disk := discardZoneFiles (p.zones.filter (· ∉ zones)) p.disk }

/-- `set_records`, where nothing fails. -/
def setRecords (p : Provider) (time : Nat) (name : String) (type : RecordType) (values : List String)
    (ttl : Int) : Provider :=
  if p.records.get (name, type) = some (rrset name type values ttl) then p
  else { p with records := p.records.set name type values ttl }.writeConfig time

/-- `delete_records`, where nothing fails. -/
def deleteRecords (p : Provider) (time : Nat) (name : String) (type : RecordType) : Provider :=
  match p.records.get (name, type) with
  | none => p
  | some _ => { p with records := p.records.pop (name, type) }.writeConfig time

/-! ### What is rendered -/

/-- The files on disk are those of the zones and records in memory: a block for each zone, whose file
holds every record, and is the zone's own unless another zone has the same file name. -/
structure Rendered (p : Provider) : Prop where
  corefile : p.disk.corefile = some {
    zones := p.zones.map fun zone => ⟨zone, zonefilePath zone, containerZonefilePath zone⟩
    bindIp := p.bindIp
    containerGatewayIp := p.containerGatewayIp }
  zoneFile : ∀ zone ∈ p.zones, ∃ zone' ∈ p.zones, zonefilePath zone' = zonefilePath zone ∧
    p.disk.zoneFiles (zonefilePath zone) =
      some ⟨zone', p.serial, addressTtlSeconds, p.records.sorted⟩

/-- CoreDNS runs. -/
def running (p : Provider) : Bool := p.coredns.any CoreDnsProcess.running

/-- CoreDNS runs exactly when there are zones, and serves these. -/
def Matched (p : Provider) : Prop :=
  if p.zones = [] then ∀ process, p.coredns = some process → process.running = false
  else ∃ process, p.coredns = some process ∧ process.running = true ∧ process.zones = p.zones

end Provider

/-! ## Rendering -/

/-- A path that no zone writes keeps its file. -/
theorem writeFiles_of_ne {α : Type} (path : String → String) (content : String → α) (target : String)
    (zones : List String) (files : String → Option α) (h : ∀ zone ∈ zones, path zone ≠ target) :
    writeFiles path content zones files target = files target := by
  induction zones generalizing files with
  | nil => rfl
  | cons first zones ih =>
    rw [List.forall_mem_cons] at h
    rw [writeFiles, ih _ h.2, Function.update_of_ne (Ne.symm h.1)]

/-- A path that zones write holds the file of one of them. -/
theorem writeFiles_of_mem {α : Type} (path : String → String) (content : String → α) (target : String)
    (zones : List String) (files : String → Option α) (h : ∃ zone ∈ zones, path zone = target) :
    ∃ zone ∈ zones, path zone = target ∧
      writeFiles path content zones files target = some (content zone) := by
  induction zones generalizing files with
  | nil =>
    obtain ⟨zone, hmem, -⟩ := h
    exact absurd hmem List.not_mem_nil
  | cons first zones ih =>
    rw [writeFiles]
    by_cases hlater : ∃ zone ∈ zones, path zone = target
    · -- a later zone writes the path once more
      obtain ⟨zone, hmem, hpath, hfile⟩ := ih _ hlater
      exact ⟨zone, List.mem_cons_of_mem first hmem, hpath, hfile⟩
    · have hnone : ∀ zone ∈ zones, path zone ≠ target := fun zone hmem hpath => hlater ⟨zone, hmem, hpath⟩
      have hfirst : path first = target := by
        obtain ⟨zone, hmem, hpath⟩ := h
        rcases List.mem_cons.mp hmem with rfl | hmem
        · exact hpath
        · exact absurd hpath (hnone zone hmem)
      refine ⟨first, List.mem_cons_self, hfirst, ?_⟩
      rw [writeFiles_of_ne _ _ _ _ _ hnone, hfirst, Function.update_self]

namespace Provider

variable {p : Provider}

/-- What is written is the rendering of what is in memory. -/
theorem rendered_writeConfig (hbound : p.bound = true) (time : Nat) :
    (p.writeConfig time).Rendered := by
  rw [writeConfig, if_pos hbound]
  refine ⟨rfl, ?_⟩
  intro zone hzone
  exact writeFiles_of_mem _ _ _ _ _ ⟨zone, hzone, rfl⟩

/-- A process that is started on the rendered files serves the zones. -/
theorem Rendered.corefileZones (h : p.Rendered) : p.corefileZones = p.zones := by
  rw [Provider.corefileZones, h.corefile]
  dsimp only
  rw [List.map_map]
  exact List.map_id _

theorem writeConfig_of_not_bound (hbound : p.bound = false) (time : Nat) : p.writeConfig time = p := by
  rw [writeConfig, hbound, if_neg Bool.false_ne_true]

/-! ### What the operations leave as it is -/

@[simp] theorem zones_writeConfig (time : Nat) : (p.writeConfig time).zones = p.zones := by
  unfold writeConfig
  split <;> rfl

@[simp] theorem records_writeConfig (time : Nat) : (p.writeConfig time).records = p.records := by
  unfold writeConfig
  split <;> rfl

@[simp] theorem coredns_writeConfig (time : Nat) : (p.writeConfig time).coredns = p.coredns := by
  unfold writeConfig
  split <;> rfl

@[simp] theorem bindIp_writeConfig (time : Nat) : (p.writeConfig time).bindIp = p.bindIp := by
  unfold writeConfig
  split <;> rfl

@[simp] theorem bound_writeConfig (time : Nat) : (p.writeConfig time).bound = p.bound := by
  unfold writeConfig
  split <;> rfl

@[simp] theorem zones_setRecords (time : Nat) (name : String) (type : RecordType)
    (values : List String) (ttl : Int) : (p.setRecords time name type values ttl).zones = p.zones := by
  unfold setRecords
  split
  · rfl
  · rw [zones_writeConfig]

@[simp] theorem coredns_setRecords (time : Nat) (name : String) (type : RecordType)
    (values : List String) (ttl : Int) :
    (p.setRecords time name type values ttl).coredns = p.coredns := by
  unfold setRecords
  split
  · rfl
  · rw [coredns_writeConfig]

@[simp] theorem zones_deleteRecords (time : Nat) (name : String) (type : RecordType) :
    (p.deleteRecords time name type).zones = p.zones := by
  unfold deleteRecords
  split
  · rfl
  · rw [zones_writeConfig]

@[simp] theorem coredns_deleteRecords (time : Nat) (name : String) (type : RecordType) :
    (p.deleteRecords time name type).coredns = p.coredns := by
  unfold deleteRecords
  split
  · rfl
  · rw [coredns_writeConfig]

@[simp] theorem bindIp_setRecords (time : Nat) (name : String) (type : RecordType)
    (values : List String) (ttl : Int) :
    (p.setRecords time name type values ttl).bindIp = p.bindIp := by
  unfold setRecords
  split
  · rfl
  · rw [bindIp_writeConfig]

@[simp] theorem bindIp_deleteRecords (time : Nat) (name : String) (type : RecordType) :
    (p.deleteRecords time name type).bindIp = p.bindIp := by
  unfold deleteRecords
  split
  · rfl
  · rw [bindIp_writeConfig]

end Provider

/-! ## A provider as it is created -/

/-- A provider without zones and records. -/
def freshProvider (bindIp : Option String) : Provider :=
  ⟨bindIp, none, [], .empty, none, 0, ⟨none, fun _ => none, fun _ => none⟩⟩

theorem notLocalOnly_host : isLocalOnly "host.example.com" = false := by decide +kernel

theorem normalizeZone_host : normalizeZone "host.example.com" = "host.example.com" := by
  decide +kernel

end OpenHost.Dns
