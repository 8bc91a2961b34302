import OpenHost.Dns.Schedule
import OpenHost.Web.AppHosts

/-!
# Adding and removing domains

`add_domain` and `remove_domain` as they interleave on the event loop, with what they leave for
after the response.  A request changes the table and lines up for the zone lock in one go; what it
then awaits is the change of the zones, and after the response the reload of Caddy, which reads the
table anew.  `Dns.Schedule` is the provider that all of them share.

A request that is refused changes nothing and leaves nothing behind.
-/

namespace OpenHost.Web

open Text (lower before stripBlank)
open Domains (DomainRecord Domain DomainCertStatus effectiveDomains getRecord)
open Dns (Schedule DnsAction ZoneChange isLocalOnly normalizeZone)

/-! ## The Caddyfile -/

/-- What a site block names as its certificate. -/
inductive CertSource where
  | files
  /-- `tls internal` -/
  | internal
  deriving DecidableEq, Repr

/-- A site block, for a name and for what is below it. -/
inductive Site where
  | https (name : String) (cert : CertSource) (webServerPort : Nat)
  | redirect (name : String)
  | http (name : String) (webServerPort : Nat)
  deriving DecidableEq, Repr

def Site.name : Site → String
  | https name _ _ => name
  | redirect name => name
  | http name _ => name

structure Caddyfile where
  autoHttps : String
  admin : String
  sites : List Site
  deriving DecidableEq, Repr

structure CaddyConfig where
  webServerPort : Nat
  adminAddr : Option String

/-- `_tls_domain_blocks` and `_http_domain_block`, as `generate_caddyfile` picks one of them. -/
def domainBlocks (port : Nat) (hasCert : String → Bool) (d : Domain) : List Site :=
  if !d.tls then [.http d.nameNoPort port]
  else [.https d.nameNoPort (if hasCert d.nameNoPort then .files else .internal) port,
    .redirect d.nameNoPort]

/-- `generate_caddyfile`; `hasCert` says for which names both files are on disk. -/
def generateCaddyfile (config : CaddyConfig) (hasCert : String → Bool) (domains : List Domain) :
    Caddyfile where
  autoHttps := if domains.any (·.tls) then "disable_redirects" else "off"
  admin := config.adminAddr.getD "off"
  sites := domains.flatMap (domainBlocks config.webServerPort hasCert)

/-- The file has site blocks for the domains, and for no other name. -/
def Caddyfile.Lists (file : Caddyfile) (domains : List Domain) : Prop :=
  ∀ name, (∃ site ∈ file.sites, site.name = name) ↔ ∃ d ∈ domains, d.nameNoPort = name

/-! ## The table -/

/-- The rows of the `domains` table; whatever is inserted is put in lower case first. -/
structure DomainTable where
  rows : List DomainRecord
  constraints : Domains.Constraints rows
  lowered : ∀ r ∈ rows, lower r.name = r.name

/-- The domain is one that the provider is to serve. -/
def isPublic (d : Domain) : Bool := !d.mdns && !isLocalOnly d.nameNoPort

/-- The zones that belong to the rows. -/
def publicZones (rows : List DomainRecord) : List String :=
  ((effectiveDomains rows).filter isPublic).map Domain.nameNoPort

/-- The record that `add_domain` builds. -/
def addedRecord (name : String) (tls mdns : Bool) : DomainRecord :=
  { name := name, tls := tls, mdns := mdns, certStatus := if tls then .acquiring else .active }

theorem addedRows_eq (name : String) (tls mdns : Bool) (rows : List DomainRecord) :
    addedRows name tls mdns rows =
      if name ∈ rows.map DomainRecord.name then
        rows.map fun r =>
          if r.name = name then Domains.replaceFields (addedRecord name tls mdns) r else r
      else rows ++ [addedRecord name tls mdns] := by
  unfold addedRows upsertRow addedRecord
  by_cases h : name ∈ rows.map DomainRecord.name
  · rw [if_pos h, if_pos (by simpa using h)]
  · rw [if_neg h, if_neg (by simpa using h)]

namespace DomainTable

/-- What leaves the names and the primary flags keeps the constraints. -/
theorem constraints_map {rows : List DomainRecord} (h : Domains.Constraints rows)
    {f : DomainRecord → DomainRecord} (hname : ∀ r, (f r).name = r.name)
    (hprimary : ∀ r, (f r).isPrimary = r.isPrimary) : Domains.Constraints (rows.map f) where
  names := by
    rw [List.map_map, show DomainRecord.name ∘ f = DomainRecord.name from funext hname]
    exact h.names
  primary := by
    rw [List.countP_map, show (·.isPrimary) ∘ f = (·.isPrimary) from funext hprimary]
    exact h.primary

theorem lowered_map {rows : List DomainRecord} (h : ∀ r ∈ rows, lower r.name = r.name)
    {f : DomainRecord → DomainRecord} (hname : ∀ r, (f r).name = r.name) :
    ∀ r ∈ rows.map f, lower r.name = r.name := by
  intro r' hr'
  obtain ⟨r, hr, rfl⟩ := List.mem_map.mp hr'
  rw [hname]
  exact h r hr

theorem replace_name (record r : DomainRecord) (name : String) :
    (if r.name = name then Domains.replaceFields record r else r).name = r.name := by
  split <;> rfl

theorem replace_isPrimary (record r : DomainRecord) (name : String) :
    (if r.name = name then Domains.replaceFields record r else r).isPrimary = r.isPrimary := by
  split <;> rfl

variable (t : DomainTable)

/-- `upsert_record`, of the record that `add_domain` builds. -/
def add (name : String) (tls mdns : Bool) : DomainTable where
  rows := addedRows (lower name) tls mdns t.rows
  constraints := by
    rw [addedRows_eq]
    split
    · exact constraints_map t.constraints (fun r => replace_name _ r _)
        fun r => replace_isPrimary _ r _
    · rename_i hnew
      refine ⟨?_, ?_⟩
      · rw [List.map_append]
        refine List.nodup_append'.mpr ⟨t.constraints.names, List.nodup_singleton _, ?_⟩
        simpa [addedRecord] using hnew
      · have hprimary := t.constraints.primary
        simpa [List.countP_append, addedRecord] using hprimary
  lowered := by
    rw [addedRows_eq]
    split
    · exact lowered_map t.lowered fun r => replace_name _ r _
    · intro r hr
      rcases List.mem_append.mp hr with hr | hr
      · exact t.lowered r hr
      · rw [List.mem_singleton.mp hr]
        exact Text.lower_lower name

theorem constraints_filter {rows : List DomainRecord} (h : Domains.Constraints rows)
    (p : DomainRecord → Bool) : Domains.Constraints (rows.filter p) where
  names := h.names.sublist (List.Sublist.map _ List.filter_sublist)
  primary := (List.Sublist.countP_le List.filter_sublist).trans h.primary

/-- `remove_non_primary_record`: the table, and how many rows went. -/
def removeNonPrimary (name : String) : DomainTable × Nat :=
  (⟨t.rows.filter fun r => !(r.name = lower name && !r.isPrimary),
      constraints_filter t.constraints _, fun r hr => t.lowered r (List.mem_filter.mp hr).1⟩,
    t.rows.countP fun r => r.name = lower name && !r.isPrimary)

/-- `set_record_status` -/
def setStatus (name : String) (certStatus : DomainCertStatus) (errorMessage : Option String) :
    DomainTable where
  rows := t.rows.map fun r =>
    if r.name = lower name then
      { r with certStatus := certStatus, errorMessage := errorMessage }
    else r
  constraints := by
    refine constraints_map t.constraints (fun r => ?_) fun r => ?_
    · split <;> rfl
    · split <;> rfl
  lowered := by
    refine lowered_map t.lowered fun r => ?_
    split <;> rfl

end DomainTable

/-! ## The event loop -/

/-- Where a request, or what it has left for after the response, awaits something. -/
inductive RequestStage where
  /-- In `add_zone` or `remove_zone`; the ticket is the place of the change among all that came. -/
  | zone (ticket : Nat)
  /-- The response is being sent. -/
  | response
  /-- `caddy.reload()` -/
  | reloading
  /-- `ensure_cert_for` -/
  | acquiring
  /-- `caddy.reload()`, after the certificate has come -/
  | reloadingCert
  deriving DecidableEq, Repr

/-- A request in flight; `certFor` is the domain for which it acquires a certificate in the end. -/
structure DomainTask where
  stage : RequestStage
  certFor : Option String
  deriving DecidableEq, Repr

structure DomainSpace where
  table : DomainTable
  dns : Schedule
  /-- The last Caddyfile written; `none` where Caddy isn't running, and `reload_caddy_for_domains`
  does nothing. -/
  caddyfile : Option Caddyfile
  tasks : List DomainTask

inductive DomainEvent where
  | addDomain (name : String) (tls mdns : Bool)
  | removeDomain (name : String)
  /-- A turn of the provider, or a change of records. -/
  | dns (action : DnsAction)
  /-- What the task awaits has happened; `hasCert` are the names with a certificate on disk, and
  `error` is what `ensure_cert_for` raised. -/
  | resume (task : Nat) (hasCert : String → Bool) (error : Option String)

/-- `name.strip().lower()` -/
def requestName (name : String) : String := lower (stripBlank name)

/-- A call of the provider, and where the caller then waits. -/
def callZone (dns : Schedule) (call : DnsAction) : Schedule × RequestStage :=
  match dns.next call with
  -- `DnsNotEnabled` is no error
  | none => (dns, .response)
  | some dns' =>
      (dns', if dns'.arrived = dns.arrived then .response else .zone dns.arrived.length)

namespace DomainSpace

variable (s : DomainSpace)

/-- `add_domain`, up to its first `await`. -/
def addDomain (name : String) (tls mdns : Bool) : DomainSpace :=
  let name := requestName name
  match validateNewDomain name tls mdns s.table.rows with
  | some _ => s
  | none =>
      let call := if mdns then (s.dns, .response) else callZone s.dns (.addZone name)
      { s with
        table := s.table.add name tls mdns
        dns := call.1
        tasks := s.tasks ++ [⟨call.2, if tls then some name else none⟩] }

/-- `remove_domain`, up to its first `await`. -/
def removeDomain (name : String) : DomainSpace :=
  let name := requestName name
  match getRecord s.table.rows name with
  | none => s
  | some removed =>
      let result := s.table.removeNonPrimary removed.name
      if result.2 = 0 then s
      else
        let call := if removed.mdns then (s.dns, .response) else callZone s.dns (.removeZone name)
        { s with
          table := result.1
          dns := call.1
          tasks := s.tasks ++ [⟨call.2, none⟩] }

/-- `reload_caddy_for_domains`, up to its first `await`. -/
def writeCaddyfile (config : CaddyConfig) (hasCert : String → Bool) : DomainSpace :=
  { s with
    caddyfile := s.caddyfile.map fun _ =>
      generateCaddyfile config hasCert (effectiveDomains s.table.rows) }

/-- The task goes on, and waits at another place or is done. -/
def moveTask (i : Nat) (stage : Option RequestStage) : DomainSpace :=
  match stage with
  | some stage => { s with tasks := s.tasks.modify i fun task => { task with stage := stage } }
  | none => { s with tasks := s.tasks.eraseIdx i }

/-- What a task does between two of its `await`s. -/
def resume (config : CaddyConfig) (i : Nat) (task : DomainTask) (hasCert : String → Bool)
    (error : Option String) : Option DomainSpace :=
  match task.stage, task.certFor with
  | .zone ticket, _ =>
      if ticket < s.dns.completed.length then some (s.moveTask i (some .response)) else none
  | .response, _ => some ((s.writeCaddyfile config hasCert).moveTask i (some .reloading))
  | .reloading, none => some (s.moveTask i none)
  | .reloading, some _ => some (s.moveTask i (some .acquiring))
  | .acquiring, some name =>
      match error with
      | some error =>
          some ({ s with table := s.table.setStatus name .error (some error) }.moveTask i none)
      | none =>
          let s := { s with table := s.table.setStatus name .active none }
          some ((s.writeCaddyfile config hasCert).moveTask i (some .reloadingCert))
  | .acquiring, none => none
  | .reloadingCert, _ => some (s.moveTask i none)

/-- A step of the loop, where nothing but the acquisition of a certificate fails. -/
def next (config : CaddyConfig) (s : DomainSpace) : DomainEvent → Option DomainSpace
  | .addDomain name tls mdns => some (s.addDomain name tls mdns)
  | .removeDomain name => some (s.removeDomain name)
  | .dns action =>
      if action.isCall then none else (s.dns.next action).map fun dns => { s with dns := dns }
  | .resume i hasCert error =>
      s.tasks[i]?.bind fun task => s.resume config i task hasCert error

end DomainSpace

def domainStep (config : CaddyConfig) (s : DomainSpace) (e : DomainEvent) (s' : DomainSpace) :
    Prop :=
  s.next config e = some s'

/-! ## Names -/

theorem isBlank_lowerChar (c : Char) : Text.isBlank (Text.lowerChar c) = Text.isBlank c := by
  apply Text.forall_char (P := fun c => Text.isBlank (Text.lowerChar c) = Text.isBlank c)
  · decide +kernel
  · intro c h
    rw [h]

theorem stripBlank_requestName (name : String) :
    stripBlank (requestName name) = requestName name := by
  have hblank : Text.isBlank ∘ Text.lowerChar = Text.isBlank := funext isBlank_lowerChar
  have hstrip := Text.strip_strip name.toList
  rw [← String.toList_inj]
  simp only [Text.lstripChars, Text.rstripChars] at hstrip
  -- white space has no case
  simp only [requestName, Text.toList_stripBlank, Text.toList_lower, Text.lstripChars,
    Text.rstripChars, List.dropWhile_map, ← List.map_reverse, hblank, hstrip]

theorem lower_requestName (name : String) : lower (requestName name) = requestName name :=
  Text.lower_lower _

/-- Labels are not empty, so a name that is accepted does not end in a dot. -/
theorem rstrip_of_isDomainName {name : String} (h : isDomainName name = true) :
    Text.rstrip '.' name = name := by
  rw [← String.toList_inj, Text.rstrip, String.toList_ofList, List.reverse_eq_iff]
  cases hlast : name.toList.reverse with
  | nil => rfl
  | cons c rest =>
    by_cases hc : c = '.'
    · exfalso
      subst hc
      have hname : name.toList = rest.reverse ++ '.' :: [] := by
        rw [← List.reverse_reverse name.toList, hlast, List.reverse_cons]
      have hkept : Text.stripSuffix? "\n" name = none := by
        by_contra hstrip
        obtain ⟨stripped, hsome⟩ := Option.ne_none_iff_exists'.mp hstrip
        have hend := congrArg (fun s => s.toList.getLast?) (Text.stripSuffix?_eq_some_iff.mp hsome)
        simp [hname] at hend
      unfold isDomainName at h
      rw [hkept, Option.getD_none, hname, List.splitOn_append_cons_self] at h
      simp [isLabel] at h
    · simp [hc]

theorem normalizeZone_requestName {name : String}
    (h : Text.rstrip '.' (requestName name) = requestName name) :
    normalizeZone (requestName name) = requestName name := by
  rw [normalizeZone, stripBlank_requestName, h, lower_requestName]

/-! ## What the table asks for -/

theorem effectiveDomains_perm (rows : List DomainRecord) :
    (effectiveDomains rows).Perm (rows.map DomainRecord.toDomain) := by
  apply List.Perm.map
  exact (List.filter_append_perm _ _).trans (List.mergeSort_perm _ _)

theorem publicZones_perm {rows rows' : List DomainRecord} (h : rows.Perm rows') :
    (publicZones rows).Perm (publicZones rows') := by
  have hdomains : (effectiveDomains rows).Perm (effectiveDomains rows') :=
    (effectiveDomains_perm rows).trans ((h.map _).trans (effectiveDomains_perm rows').symm)
  exact (hdomains.filter _).map _

/-- One row more. -/
theorem publicZones_cons (r : DomainRecord) (rows : List DomainRecord) :
    (publicZones (r :: rows)).Perm
      (if isPublic r.toDomain then r.toDomain.nameNoPort :: publicZones rows
        else publicZones rows) := by
  have hperm : ∀ rows : List DomainRecord, (publicZones rows).Perm
      (((rows.map DomainRecord.toDomain).filter isPublic).map Domain.nameNoPort) := fun rows =>
    ((effectiveDomains_perm rows).filter _).map _
  refine (hperm _).trans ?_
  rw [List.map_cons, List.filter_cons]
  split
  · exact (hperm rows).symm.cons _
  · exact (hperm rows).symm

theorem colon_not_mem_nameNoPort (d : Domain) : ':' ∉ d.nameNoPort.toList :=
  Text.not_mem_before ':' d.name

theorem getRecord_spec {rows : List DomainRecord} {name : String} {r : DomainRecord}
    (h : getRecord rows name = some r) :
    r ∈ rows ∧ r.toDomain.nameNoPort = lower (before ':' name) := by
  have hname := List.find?_some h
  refine ⟨List.mem_of_find?_eq_some h, ?_⟩
  rw [DomainRecord.toDomain, Domain.ofName, Domain.nameNoPort, Text.before_lower]
  exact of_decide_eq_true hname

theorem validateNewDomain_spec {name : String} {tls mdns : Bool} {rows : List DomainRecord}
    (h : validateNewDomain name tls mdns rows = none) :
    isDomainName name = true ∧ ∀ d ∈ effectiveDomains rows, d.nameNoPort ≠ name := by
  simp only [validateNewDomain] at h
  split at h
  · cases h
  · split at h
    · cases h
    · rename_i hvalid
      split at h
      · cases h
      · split at h
        · cases h
        · rename_i hnew
          exact ⟨by simpa using hvalid, by simpa using hnew⟩

/-- A domain that was refused nothing gets a row of its own. -/
theorem rows_add {t : DomainTable} {name : String} {tls mdns : Bool}
    (h : validateNewDomain (requestName name) tls mdns t.rows = none) :
    (t.add (requestName name) tls mdns).rows =
      t.rows ++ [addedRecord (requestName name) tls mdns] := by
  obtain ⟨hvalid, hnew⟩ := validateNewDomain_spec h
  have hrows : (t.add (requestName name) tls mdns).rows =
      addedRows (lower (requestName name)) tls mdns t.rows := rfl
  rw [hrows, lower_requestName, addedRows_eq, if_neg]
  intro hmem
  obtain ⟨r, hr, hname⟩ := List.mem_map.mp hmem
  apply hnew r.toDomain (Domains.mem_effectiveDomains.mpr ⟨r, hr, rfl⟩)
  rw [DomainRecord.toDomain, Domain.ofName, Domain.nameNoPort, hname, lower_requestName]
  exact nameNoPort_of_isDomainName hvalid

/-- Where a row goes, it is the one that was found. -/
theorem perm_removed {t : DomainTable} {r : DomainRecord} (hr : r ∈ t.rows)
    (hprimary : r.isPrimary = false) :
    t.rows.Perm (r :: (t.removeNonPrimary r.name).1.rows) := by
  have hgone : t.rows.filter (fun x => x.name = lower r.name && !x.isPrimary) = [r] := by
    have hsame : ∀ x ∈ t.rows, (x.name = lower r.name && !x.isPrimary) = (x == r) := by
      intro x hx
      rw [t.lowered r hr]
      by_cases hxr : x = r
      · simp [hxr, hprimary]
      · have hname : x.name ≠ r.name :=
          fun hname => hxr (List.inj_on_of_nodup_map t.constraints.names hx hr hname)
        simp [hxr, hname]
    have hnodup : t.rows.Nodup := List.Nodup.of_map _ t.constraints.names
    rw [List.filter_congr hsame, List.filter_beq, List.count_eq_one_of_mem hnodup hr]
    rfl
  have hperm :=
    (List.filter_append_perm (fun x => x.name = lower r.name && !x.isPrimary) t.rows).symm
  rw [hgone] at hperm
  exact hperm

/-- A row that is primary stays. -/
theorem removeNonPrimary_of_primary {t : DomainTable} {r : DomainRecord} (hr : r ∈ t.rows)
    (hprimary : r.isPrimary = true) : (t.removeNonPrimary r.name).2 = 0 := by
  refine List.countP_eq_zero.mpr fun x hx => ?_
  rw [t.lowered r hr]
  intro hp
  simp only [Bool.and_eq_true, decide_eq_true_eq, Bool.not_eq_true'] at hp
  rw [List.inj_on_of_nodup_map t.constraints.names hx hr hp.1, hprimary] at hp
  cases hp.2

theorem effectiveDomains_setStatus (t : DomainTable) (name : String)
    (status : DomainCertStatus) (error : Option String) :
    (effectiveDomains (t.setStatus name status error).rows).Perm (effectiveDomains t.rows) := by
  refine (effectiveDomains_perm _).trans (.trans ?_ (effectiveDomains_perm _).symm)
  apply List.Perm.of_eq
  rw [DomainTable.setStatus, List.map_map]
  apply List.map_congr_left
  intro r _
  rw [Function.comp_apply]
  split <;> rfl

/-! ## What is written to the Caddyfile -/

theorem name_of_domainBlocks {port : Nat} {hasCert : String → Bool} {d : Domain} {site : Site}
    (h : site ∈ domainBlocks port hasCert d) : site.name = d.nameNoPort := by
  unfold domainBlocks at h
  split at h
  · rw [List.mem_singleton.mp h]
    rfl
  · simp only [List.mem_cons, List.not_mem_nil, or_false] at h
    rcases h with rfl | rfl
    · rfl
    · rfl

theorem lists_generateCaddyfile (config : CaddyConfig) (hasCert : String → Bool)
    (domains : List Domain) : (generateCaddyfile config hasCert domains).Lists domains := by
  intro name
  constructor
  · intro h
    obtain ⟨site, hsite, rfl⟩ := h
    obtain ⟨d, hd, hmem⟩ := List.mem_flatMap.mp hsite
    exact ⟨d, hd, (name_of_domainBlocks hmem).symm⟩
  · intro h
    obtain ⟨d, hd, rfl⟩ := h
    -- with TLS and without, there is a first block
    obtain ⟨site, hsite⟩ : ∃ site, site ∈ domainBlocks config.webServerPort hasCert d := by
      unfold domainBlocks
      split
      · exact ⟨_, List.mem_singleton.mpr rfl⟩
      · exact ⟨_, List.mem_cons_self⟩
    exact ⟨site, List.mem_flatMap.mpr ⟨d, hd, hsite⟩, name_of_domainBlocks hsite⟩

theorem Caddyfile.Lists.congr {file : Caddyfile} {domains domains' : List Domain}
    (h : file.Lists domains) (hperm : domains'.Perm domains) : file.Lists domains' := by
  intro name
  rw [h name]
  simp only [hperm.mem_iff]

/-! ## Agreement -/

/-- The provider serves the configured domains that are neither mDNS nor local-only, each once,
CoreDNS runs on these, and the last Caddyfile has sites for exactly the configured domains. -/
structure DomainSpace.Agrees (s : DomainSpace) : Prop where
  zones : s.dns.provider.zones.Perm (publicZones s.table.rows)
  once : s.dns.provider.zones.Nodup
  served : s.dns.provider.Matched
  caddyfile : ∀ file, s.caddyfile = some file → file.Lists (effectiveDomains s.table.rows)

/-- The request finds a public domain, though its name has a port behind it. -/
def RemovesByPort (rows : List DomainRecord) (name : String) : Prop :=
  ':' ∈ (requestName name).toList ∧ ∃ removed, getRecord rows (requestName name) = some removed ∧
    removed.isPrimary = false ∧ isPublic removed.toDomain = true

/-- The event removes no public domain by a name with a port. -/
def DomainSpace.Spares (s : DomainSpace) : DomainEvent → Prop
  | .removeDomain name => ¬ RemovesByPort s.table.rows name
  | _ => True

/-- The task is still to write the Caddyfile. -/
def RequestStage.willWrite : RequestStage → Bool
  | .zone _ | .response => true
  | _ => false

/-- The invariant of the event loop; `start` is the provider as it was created. -/
structure DomainSpace.Inv (start : Dns.Provider) (s : DomainSpace) : Prop where
  dns : s.dns.Inv start
  enabled : s.dns.provider.servesPublicZones = true
  undotted : ∀ c ∈ s.dns.arrived, Text.rstrip '.' c.name = c.name
  /-- Once the changes that have come are through, the zones are those of the table. -/
  zones : (ZoneChange.applyAll [] s.dns.arrived).Perm (publicZones s.table.rows)
  tickets : ∀ ticket, s.dns.completed.length ≤ ticket → ticket < s.dns.arrived.length →
    ∃ task ∈ s.tasks, task.stage = .zone ticket
  caddyfile : (∃ task ∈ s.tasks, task.stage.willWrite = true) ∨
    ∀ file, s.caddyfile = some file → file.Lists (effectiveDomains s.table.rows)

/-! ## What every step preserves -/

section

variable {start : Dns.Provider} {s s' : DomainSpace} {config : CaddyConfig}

theorem callZone_skip {dns : Schedule} {call : DnsAction} (h : dns.next call = some dns) :
    callZone dns call = (dns, .response) := by
  unfold callZone
  rw [h]
  simp

theorem callZone_arrives {dns dns' : Schedule} {call : DnsAction} {c : ZoneChange}
    (h : dns.next call = some dns') (harrived : dns'.arrived = dns.arrived ++ [c]) :
    callZone dns call = (dns', .zone dns.arrived.length) := by
  unfold callZone
  rw [h]
  simp [harrived]

/-- A request that needs no zone changed. -/
theorem inv_request_skip (h : s.Inv start) {table : DomainTable} (certFor : Option String)
    (hzones : (publicZones table.rows).Perm (publicZones s.table.rows)) :
    DomainSpace.Inv start
      { s with table := table, tasks := s.tasks ++ [⟨.response, certFor⟩] } where
  dns := h.dns
  enabled := h.enabled
  undotted := h.undotted
  zones := h.zones.trans hzones.symm
  tickets ticket hfrom hto := by
    obtain ⟨task, htask, hstage⟩ := h.tickets ticket hfrom hto
    exact ⟨task, List.mem_append_left _ htask, hstage⟩
  caddyfile := Or.inl ⟨_, List.mem_append_right _ (List.mem_singleton.mpr rfl), rfl⟩

/-- A request whose change lines up for the zone lock. -/
theorem inv_request_arrives (h : s.Inv start) {table : DomainTable} (certFor : Option String)
    {dns : Schedule} {call : DnsAction} {c : ZoneChange} (hnext : s.dns.next call = some dns)
    (harrived : dns.arrived = s.dns.arrived ++ [c])
    (hzones : (c.apply (ZoneChange.applyAll [] s.dns.arrived)).Perm (publicZones table.rows)) :
    DomainSpace.Inv start
      { s with
        table := table
        dns := dns
        tasks := s.tasks ++ [⟨.zone s.dns.arrived.length, certFor⟩] } where
  dns := Schedule.inv_next h.dns hnext
  enabled := by
    rw [Dns.Provider.servesPublicZones, Schedule.bindIp_next hnext]
    exact h.enabled
  undotted := Schedule.rstrip_of_arrived h.undotted hnext
  zones := by
    rw [harrived, ZoneChange.applyAll_concat]
    exact hzones
  tickets ticket hfrom hto := by
    dsimp only at hfrom hto ⊢
    rw [harrived, List.length_append, List.length_singleton] at hto
    by_cases hold : ticket < s.dns.arrived.length
    · have hcompleted := (Schedule.length_completed_next hnext).trans hfrom
      obtain ⟨task, htask, hstage⟩ := h.tickets ticket hcompleted hold
      exact ⟨task, List.mem_append_left _ htask, hstage⟩
    · obtain rfl : ticket = s.dns.arrived.length := by omega
      exact ⟨_, List.mem_append_right _ (List.mem_singleton.mpr rfl), rfl⟩
  caddyfile := Or.inl ⟨_, List.mem_append_right _ (List.mem_singleton.mpr rfl), rfl⟩

theorem inv_addDomain (h : s.Inv start) (name : String) (tls mdns : Bool) :
    (s.addDomain name tls mdns).Inv start := by
  unfold DomainSpace.addDomain
  dsimp only
  cases hvalidate : validateNewDomain (requestName name) tls mdns s.table.rows with
  | some message => exact h
  | none =>
    obtain ⟨hvalid, hnew⟩ := validateNewDomain_spec hvalidate
    have hhost :
        (addedRecord (requestName name) tls mdns).toDomain.nameNoPort = requestName name := by
      rw [DomainRecord.toDomain, Domain.ofName, Domain.nameNoPort, addedRecord, lower_requestName]
      exact nameNoPort_of_isDomainName hvalid
    have hrows := publicZones_cons (addedRecord (requestName name) tls mdns) s.table.rows
    have hperm : (publicZones (s.table.add (requestName name) tls mdns).rows).Perm
        (publicZones (addedRecord (requestName name) tls mdns :: s.table.rows)) := by
      rw [rows_add hvalidate]
      exact publicZones_perm (List.perm_append_singleton _ _)
    cases mdns with
    | true => exact inv_request_skip h _ (hperm.trans hrows)
    | false =>
      by_cases hlocal : isLocalOnly (requestName name) = true
      · have hskip : s.dns.next (.addZone (requestName name)) = some s.dns := by
          rw [Schedule.next, if_pos hlocal]
        dsimp only
        rw [if_neg (by simp), callZone_skip hskip]
        rw [if_neg (by simp [isPublic, hhost, hlocal])] at hrows
        exact inv_request_skip h _ (hperm.trans hrows)
      · have hnext : s.dns.next (.addZone (requestName name)) = some { s.dns with
            waiting := s.dns.waiting ++ [.add (normalizeZone (requestName name))] } := by
          rw [Schedule.next, if_neg hlocal, if_pos h.enabled]
        have harrived := Schedule.arrived_addZone hnext
        rw [if_neg hlocal] at harrived
        rw [if_neg (by simp), callZone_arrives hnext harrived]
        refine inv_request_arrives h _ hnext harrived ?_
        have hmdns : (addedRecord (requestName name) tls false).toDomain.mdns = false := rfl
        rw [if_pos (by simp [isPublic, hhost, hmdns, hlocal]), hhost] at hrows
        -- no domain has had the name, and so no zone either
        have habsent : requestName name ∉ ZoneChange.applyAll [] s.dns.arrived := by
          rw [h.zones.mem_iff]
          intro hmem
          obtain ⟨d, hd, hname⟩ := List.mem_map.mp hmem
          exact hnew d (List.mem_filter.mp hd).1 hname
        rw [normalizeZone_requestName (rstrip_of_isDomainName hvalid), ZoneChange.apply,
          if_neg habsent]
        exact (List.perm_append_singleton _ _).trans
          ((h.zones.cons _).trans (hrows.symm.trans hperm.symm))

/-- A zone that is asked for has been added at some time. -/
theorem add_mem_arrived (h : s.Inv start) {zone : String}
    (hzone : zone ∈ publicZones s.table.rows) : ZoneChange.add zone ∈ s.dns.arrived := by
  rw [← h.zones.mem_iff, ZoneChange.mem_applyAll_iff, ZoneChange.last] at hzone
  exact List.mem_reverse.mp (List.mem_of_find?_eq_some hzone)

theorem colon_not_mem_publicZones {rows : List DomainRecord} {zone : String}
    (h : zone ∈ publicZones rows) : ':' ∉ zone.toList := by
  obtain ⟨d, -, rfl⟩ := List.mem_map.mp h
  exact colon_not_mem_nameNoPort d

/-- A port is part of the zone's name for the provider. -/
theorem colon_mem_normalizeZone {name : String} (h : ':' ∈ (requestName name).toList) :
    ':' ∈ (normalizeZone (requestName name)).toList := by
  rw [normalizeZone, stripBlank_requestName, Text.toList_lower]
  refine List.mem_map.mpr ⟨':', ?_, by decide⟩
  obtain ⟨a, b, hab⟩ := List.append_of_mem (List.mem_reverse.mpr h)
  rw [Text.rstrip, String.toList_ofList, List.mem_reverse, hab,
    Text.dropWhile_append_cons (by decide)]
  simp

theorem inv_removeDomain (h : s.Inv start) (name : String)
    (hspares : ¬ RemovesByPort s.table.rows name) : (s.removeDomain name).Inv start := by
  unfold DomainSpace.removeDomain
  dsimp only
  cases hrecord : getRecord s.table.rows (requestName name) with
  | none => exact h
  | some removed =>
    dsimp only
    split
    · exact h
    · rename_i hcount
      obtain ⟨hmem, hhost⟩ := getRecord_spec hrecord
      have hprimary : removed.isPrimary = false := by
        by_contra hprimary
        exact hcount (removeNonPrimary_of_primary hmem (by simpa using hprimary))
      have hrows : (publicZones s.table.rows).Perm _ :=
        (publicZones_perm (perm_removed hmem hprimary)).trans (publicZones_cons _ _)
      have hnodup : (publicZones s.table.rows).Nodup :=
        h.zones.nodup_iff.mp (ZoneChange.nodup_applyAll _)
      by_cases hmdns : removed.mdns = true
      · rw [if_pos hmdns]
        have hnot : ¬ isPublic removed.toDomain = true := by
          simp [isPublic, DomainRecord.toDomain, Domain.ofName, hmdns]
        rw [if_neg hnot] at hrows
        exact inv_request_skip h _ hrows.symm
      · have hpublic : isPublic removed.toDomain = !isLocalOnly removed.toDomain.nameNoPort := by
          simp [isPublic, DomainRecord.toDomain, Domain.ofName, hmdns]
        -- without a port the request names the very host of the domain
        have hsame : ':' ∉ (requestName name).toList →
            removed.toDomain.nameNoPort = requestName name := by
          intro hcolon
          rw [hhost, before_of_no_colon hcolon, lower_requestName]
        have hport : ':' ∈ (requestName name).toList → isPublic removed.toDomain = false := by
          intro hcolon
          by_contra hpub
          exact hspares ⟨hcolon, removed, hrecord, hprimary, by simpa using hpub⟩
        rw [if_neg hmdns]
        by_cases hlocal : isLocalOnly (requestName name) = true
        · have hnot : ¬ isPublic removed.toDomain = true := by
            by_cases hcolon : ':' ∈ (requestName name).toList
            · simp [hport hcolon]
            · simp [hpublic, hsame hcolon, hlocal]
          have hskip : s.dns.next (.removeZone (requestName name)) = some s.dns := by
            rw [Schedule.next, if_pos (by simp [hlocal])]
          rw [callZone_skip hskip]
          rw [if_neg hnot] at hrows
          exact inv_request_skip h _ hrows.symm
        · have hnext : s.dns.next (.removeZone (requestName name)) = some { s.dns with
              waiting := s.dns.waiting ++ [.remove (normalizeZone (requestName name))] } := by
            rw [Schedule.next, if_neg (by simp [hlocal, h.enabled])]
          have harrived := Schedule.arrived_removeZone hnext
          rw [if_neg (by simp [hlocal, h.enabled])] at harrived
          rw [callZone_arrives hnext harrived]
          refine inv_request_arrives h _ hnext harrived ?_
          rw [ZoneChange.apply]
          refine (h.zones.filter _).trans ?_
          by_cases hcolon : ':' ∈ (requestName name).toList
          · -- the domain is local-only, and the name with its port is no zone
            rw [if_neg (by simp [hport hcolon])] at hrows
            rw [List.filter_eq_self.mpr]
            · exact hrows
            · intro zone hzone
              refine decide_eq_true fun heq => colon_not_mem_publicZones hzone ?_
              rw [heq]
              exact colon_mem_normalizeZone hcolon
          · rw [if_pos (by simp [hpublic, hsame hcolon, hlocal]), hsame hcolon] at hrows
            have hzone : requestName name ∈ publicZones s.table.rows :=
              hrows.mem_iff.mpr List.mem_cons_self
            have hdot : Text.rstrip '.' (requestName name) = requestName name :=
              h.undotted (.add (requestName name)) (add_mem_arrived h hzone)
            rw [normalizeZone_requestName hdot]
            have hrest := (hrows.nodup_iff.mp hnodup).notMem
            refine (hrows.filter _).trans ?_
            rw [List.filter_cons_of_neg (by simp), List.filter_eq_self.mpr]
            intro zone hmem
            refine decide_eq_true fun heq => hrest ?_
            rw [← heq]
            exact hmem

theorem inv_dns (h : s.Inv start) {action : DnsAction} {dns : Schedule}
    (hturn : action.isCall = false) (hnext : s.dns.next action = some dns) :
    DomainSpace.Inv start { s with dns := dns } where
  dns := Schedule.inv_next h.dns hnext
  enabled := by
    rw [Dns.Provider.servesPublicZones, Schedule.bindIp_next hnext]
    exact h.enabled
  undotted := Schedule.rstrip_of_arrived h.undotted hnext
  zones := by
    rw [Schedule.arrived_turn hturn hnext]
    exact h.zones
  tickets ticket hfrom hto := by
    rw [Schedule.arrived_turn hturn hnext] at hto
    exact h.tickets ticket ((Schedule.length_completed_next hnext).trans hfrom) hto
  caddyfile := h.caddyfile

/-! ### A task goes on -/

theorem mem_moveTask {i : Nat} {current task : DomainTask} (stage : Option RequestStage)
    (hi : s.tasks[i]? = some current) (hmem : task ∈ s.tasks) :
    task = current ∨ task ∈ (s.moveTask i stage).tasks := by
  obtain ⟨j, hj⟩ := List.mem_iff_getElem?.mp hmem
  by_cases hij : j = i
  · rw [hij, hi] at hj
    exact Or.inl (Option.some.inj hj).symm
  · refine Or.inr ?_
    cases stage with
    | none => exact List.mem_eraseIdx_iff_getElem?.mpr ⟨j, hij, hj⟩
    | some stage =>
      refine List.mem_iff_getElem?.mpr ⟨j, ?_⟩
      simpa [DomainSpace.moveTask, List.getElem?_modify, Ne.symm hij] using hj

theorem moved_mem {i : Nat} {current : DomainTask} (stage : RequestStage)
    (hi : s.tasks[i]? = some current) :
    { current with stage := stage } ∈ (s.moveTask i (some stage)).tasks := by
  refine List.mem_iff_getElem?.mpr ⟨i, ?_⟩
  simp [DomainSpace.moveTask, hi]

/-- A task leaves its place: it does not hold the lock any more, and what it owes the Caddyfile is
written, or still to be written by itself. -/
theorem inv_moveTask (h : s.Inv start) {i : Nat} {current : DomainTask}
    (stage : Option RequestStage) (hi : s.tasks[i]? = some current)
    (hzone : ∀ ticket, current.stage = .zone ticket → ticket < s.dns.completed.length)
    (hwrite : current.stage.willWrite = true → (∃ next, stage = some next ∧ next.willWrite = true) ∨
      ∀ file, s.caddyfile = some file → file.Lists (effectiveDomains s.table.rows)) :
    (s.moveTask i stage).Inv start := by
  have hsame : (s.moveTask i stage).table = s.table ∧ (s.moveTask i stage).dns = s.dns ∧
      (s.moveTask i stage).caddyfile = s.caddyfile := by
    cases stage with
    | none => exact ⟨rfl, rfl, rfl⟩
    | some stage => exact ⟨rfl, rfl, rfl⟩
  obtain ⟨htable, hdns, hcaddyfile⟩ := hsame
  refine ⟨hdns ▸ h.dns, hdns ▸ h.enabled, hdns ▸ h.undotted, ?_, ?_, ?_⟩
  · rw [hdns, htable]
    exact h.zones
  · intro ticket hfrom hto
    rw [hdns] at hfrom hto
    obtain ⟨task, htask, hstage⟩ := h.tickets ticket hfrom hto
    rcases mem_moveTask stage hi htask with rfl | hmoved
    · exact absurd (hzone ticket hstage) (by omega)
    · exact ⟨task, hmoved, hstage⟩
  · rw [hcaddyfile, htable]
    rcases h.caddyfile with hwriter | hlists
    · obtain ⟨task, htask, hwill⟩ := hwriter
      rcases mem_moveTask stage hi htask with rfl | hmoved
      · refine (hwrite hwill).imp_left fun hnext => ?_
        obtain ⟨next, rfl, hwill⟩ := hnext
        exact ⟨_, moved_mem next hi, hwill⟩
      · exact Or.inl ⟨task, hmoved, hwill⟩
    · exact Or.inr hlists

theorem inv_setStatus (h : s.Inv start) (name : String) (status : DomainCertStatus)
    (error : Option String) :
    DomainSpace.Inv start { s with table := s.table.setStatus name status error } where
  dns := h.dns
  enabled := h.enabled
  undotted := h.undotted
  zones := by
    refine h.zones.trans ?_
    exact (((effectiveDomains_setStatus s.table name status error).filter _).map _).symm
  tickets := h.tickets
  caddyfile := h.caddyfile.imp_right fun hlists file hfile =>
    (hlists file hfile).congr (effectiveDomains_setStatus s.table name status error)

theorem lists_writeCaddyfile (s : DomainSpace) (config : CaddyConfig) (hasCert : String → Bool) :
    ∀ file, (s.writeCaddyfile config hasCert).caddyfile = some file →
      file.Lists (effectiveDomains s.table.rows) := by
  intro file hfile
  obtain ⟨old, -, rfl⟩ := Option.map_eq_some_iff.mp hfile
  exact lists_generateCaddyfile _ _ _

theorem inv_writeCaddyfile (h : s.Inv start) (config : CaddyConfig) (hasCert : String → Bool) :
    (s.writeCaddyfile config hasCert).Inv start where
  dns := h.dns
  enabled := h.enabled
  undotted := h.undotted
  zones := h.zones
  tickets := h.tickets
  caddyfile := Or.inr (lists_writeCaddyfile s config hasCert)

theorem inv_resume (h : s.Inv start) {i : Nat} {task : DomainTask} {hasCert : String → Bool}
    {error : Option String} (hi : s.tasks[i]? = some task)
    (hresume : s.resume config i task hasCert error = some s') : s'.Inv start := by
  obtain ⟨stage, certFor⟩ := task
  -- the places behind the response owe the Caddyfile nothing
  have hbehind : ∀ {s : DomainSpace} {stage : RequestStage} {certFor : Option String} next,
      s.Inv start → s.tasks[i]? = some ⟨stage, certFor⟩ → (∀ ticket, stage ≠ .zone ticket) →
      stage.willWrite = false → (s.moveTask i next).Inv start := by
    intro s stage certFor next h hi hzone hwill
    refine inv_moveTask h next hi (fun ticket hstage => absurd hstage (hzone ticket)) ?_
    intro hwrite
    rw [hwill] at hwrite
    cases hwrite
  unfold DomainSpace.resume at hresume
  cases stage with
  | zone ticket =>
    dsimp only at hresume
    split at hresume
    · rename_i hdone
      cases hresume
      refine inv_moveTask h _ hi ?_ fun _ => Or.inl ⟨.response, rfl, rfl⟩
      intro ticket' hstage
      cases hstage
      exact hdone
    · cases hresume
  | response =>
    cases hresume
    exact inv_moveTask (inv_writeCaddyfile h config hasCert) _ hi (by simp)
      fun _ => Or.inr (lists_writeCaddyfile s config hasCert)
  | reloading =>
    cases certFor with
    | none =>
      cases hresume
      exact hbehind _ h hi (by simp) rfl
    | some name =>
      cases hresume
      exact hbehind _ h hi (by simp) rfl
  | acquiring =>
    cases certFor with
    | none => cases hresume
    | some name =>
      cases error with
      | some error =>
        cases hresume
        exact hbehind _ (inv_setStatus h name .error (some error)) hi (by simp) rfl
      | none =>
        cases hresume
        exact hbehind _ (inv_writeCaddyfile (inv_setStatus h name .active none) config hasCert) hi
          (by simp) rfl
  | reloadingCert =>
    cases hresume
    exact hbehind _ h hi (by simp) rfl

theorem inv_next {e : DomainEvent} (h : s.Inv start) (hspares : s.Spares e)
    (hnext : s.next config e = some s') : s'.Inv start := by
  cases e with
  | addDomain name tls mdns =>
    obtain rfl := Option.some.inj hnext
    exact inv_addDomain h name tls mdns
  | removeDomain name =>
    obtain rfl := Option.some.inj hnext
    exact inv_removeDomain h name hspares
  | dns action =>
    rw [DomainSpace.next] at hnext
    split at hnext
    · cases hnext
    · rename_i hcall
      obtain ⟨dns, hdns, rfl⟩ := Option.map_eq_some_iff.mp hnext
      exact inv_dns h (by simpa using hcall) hdns
  | resume i hasCert error =>
    obtain ⟨task, hi, hresume⟩ := Option.bind_eq_some_iff.mp hnext
    exact inv_resume h hi hresume

/-! ### When nobody is in flight -/

theorem inv_of_agrees {d₀ : Schedule} (hfresh : d₀.Fresh)
    (hdns : Reach Dns.scheduleStep (fun _ _ => True) d₀ s.dns)
    (henabled : s.dns.provider.servesPublicZones = true) (hwaiting : s.dns.waiting = [])
    (hholder : s.dns.holder = none) (hagrees : s.Agrees) : s.Inv d₀.provider := by
  have hinv : s.dns.Inv d₀.provider :=
    hdns.invariant (Schedule.Inv d₀.provider) (Schedule.inv_of_fresh hfresh)
      fun _ _ _ ht _ hstep => Schedule.inv_next ht hstep
  have harrived : s.dns.arrived = s.dns.completed := by
    simp [Schedule.arrived, Schedule.inProgress, hwaiting, hholder]
  refine ⟨hinv, henabled, ?_, ?_, ?_, Or.inr hagrees.caddyfile⟩
  · apply hdns.invariant fun s => ∀ c ∈ s.arrived, Text.rstrip '.' c.name = c.name
    · simp [Schedule.arrived, Schedule.inProgress, hfresh.completed, hfresh.holder, hfresh.waiting]
    · exact fun _ _ _ ht _ hstep => Schedule.rstrip_of_arrived ht hstep
  · have hzones := hinv.zones
    rw [Schedule.inProgress, hholder, Option.map_none, Option.toList_none,
      List.append_nil] at hzones
    rw [harrived, ← hzones]
    exact hagrees.zones
  · intro ticket hfrom hto
    rw [harrived] at hto
    exact absurd hto (by omega)

theorem agrees_of_inv (h : s.Inv start) (htasks : s.tasks = []) : s.Agrees := by
  -- a change that has not returned has its request in flight
  have hidle : s.dns.waiting = [] ∧ s.dns.holder = none := by
    have hlength : s.dns.arrived.length ≤ s.dns.completed.length := by
      by_contra hlt
      obtain ⟨task, htask, -⟩ := h.tickets s.dns.completed.length le_rfl (by omega)
      rw [htasks] at htask
      cases htask
    simp only [Schedule.arrived, Schedule.inProgress, List.length_append] at hlength
    refine ⟨List.eq_nil_of_length_eq_zero (by omega), ?_⟩
    cases hholder : s.dns.holder with
    | none => rfl
    | some holder =>
      rw [hholder] at hlength
      simp only [Option.map_some, Option.toList_some, List.length_singleton] at hlength
      omega
  obtain ⟨hwaiting, hholder⟩ := hidle
  have harrived : s.dns.provider.zones = ZoneChange.applyAll [] s.dns.arrived := by
    rw [h.dns.zones, Schedule.arrived, hwaiting, List.append_nil]
  have hmatched := h.dns.process
  rw [Schedule.ProcessAt, hholder] at hmatched
  refine ⟨harrived ▸ h.zones, harrived ▸ ZoneChange.nodup_applyAll _, hmatched, ?_⟩
  rcases h.caddyfile with hwriter | hlists
  · obtain ⟨task, htask, -⟩ := hwriter
    rw [htasks] at htask
    cases htask
  · exact hlists

end

/-- Whatever the interleaving, where no public domain is removed by a name with a port: whenever no
request is in flight, zones, CoreDNS and Caddyfile agree with the table. -/
theorem agreement_of_reaches (config : CaddyConfig) (d₀ : Schedule) (hfresh : d₀.Fresh)
    (s₀ : DomainSpace) (hdns : Reach Dns.scheduleStep (fun _ _ => True) d₀ s₀.dns)
    (henabled : s₀.dns.provider.servesPublicZones = true) (hwaiting : s₀.dns.waiting = [])
    (hholder : s₀.dns.holder = none) (hagrees : s₀.Agrees) (s : DomainSpace)
    (h : Reach (domainStep config) DomainSpace.Spares s₀ s) (htasks : s.tasks = []) : s.Agrees := by
  have hinv : s.Inv d₀.provider :=
    h.invariant (DomainSpace.Inv d₀.provider)
      (inv_of_agrees hfresh hdns henabled hwaiting hholder hagrees)
      fun _ _ _ ht hspares hstep => inv_next ht hspares hstep
  exact agrees_of_inv hinv htasks

/-! ### A port behind the name -/

def localRow : DomainRecord :=
  { name := "host.local", tls := false, mdns := true, isPrimary := true }

def publicRow : DomainRecord := { name := "host.example.com", tls := false, mdns := false }

def twoDomains : DomainTable where
  rows := [localRow, publicRow]
  constraints := by decide
  lowered := by decide +kernel

/-- A domain that is found on the local network only, and a public one. -/
def twoDomainsSpace : DomainSpace where
  table := twoDomains
  dns := ⟨Dns.firstZone.spawn, [], none, [.add "host.example.com"]⟩
  caddyfile := some
    (generateCaddyfile ⟨8080, none⟩ (fun _ => false) (effectiveDomains twoDomains.rows))
  tasks := []

theorem publicZones_nil : publicZones [] = [] := by
  simp [publicZones, effectiveDomains, Domains.loadRecords]

theorem publicZones_localRow : (publicZones [localRow]).Perm [] := by
  have hlocal : isPublic localRow.toDomain = false := by decide +kernel
  have hrows := publicZones_cons localRow []
  rwa [hlocal, if_neg (by simp), publicZones_nil] at hrows

theorem publicZones_twoDomains : (publicZones twoDomains.rows).Perm ["host.example.com"] := by
  have hpublic : isPublic publicRow.toDomain = true := by decide +kernel
  have hhost : publicRow.toDomain.nameNoPort = "host.example.com" := by decide +kernel
  have hrows := publicZones_cons publicRow [localRow]
  rw [if_pos hpublic, hhost] at hrows
  exact (publicZones_perm (.swap publicRow localRow [])).trans
    (hrows.trans (publicZones_localRow.cons _))

theorem fresh_freshSchedule : Dns.freshSchedule.Fresh := ⟨rfl, rfl, rfl, rfl, rfl, rfl⟩

theorem twoDomainsSpace_agrees : twoDomainsSpace.Agrees where
  zones := publicZones_twoDomains.symm
  once := List.nodup_singleton _
  served := Dns.Provider.matched_spawn (Dns.Provider.rendered_writeConfig rfl 1) (by
    simp [Dns.firstZone, Dns.Provider.moveZones])
  caddyfile file hfile := by
    obtain rfl := Option.some.inj hfile
    exact lists_generateCaddyfile _ _ _

/-- The table without its public domain. -/
def oneDomain : DomainTable := (twoDomains.removeNonPrimary "host.example.com").1

theorem removeDomain_publicRow {name : String} (hname : requestName name = name)
    (hrecord : getRecord twoDomains.rows name = some publicRow) (hlocal : isLocalOnly name = false)
    (hzone : normalizeZone name = name) : twoDomainsSpace.removeDomain name =
      { twoDomainsSpace with
        table := oneDomain
        dns := { twoDomainsSpace.dns with waiting := [.remove name] }
        tasks := [⟨.zone 1, none⟩] } := by
  have hcount : (twoDomains.removeNonPrimary publicRow.name).2 = 1 := by decide +kernel
  have hnext : twoDomainsSpace.dns.next (.removeZone name) =
      some { twoDomainsSpace.dns with waiting := [.remove name] } := by
    rw [Schedule.next, hlocal, hzone]
    rfl
  unfold DomainSpace.removeDomain
  rw [hname]
  dsimp only
  rw [show twoDomainsSpace.table = twoDomains from rfl, hrecord]
  dsimp only
  rw [hcount, if_neg (by simp), if_neg (by simp [publicRow]), callZone_arrives hnext rfl]
  rfl

/-- The public domain goes by its own name. -/
theorem publicRow_removed : ∃ s : DomainSpace, s.tasks = [] ∧ s.table = oneDomain ∧ s.Agrees := by
  have hname : requestName "host.example.com" = "host.example.com" := by decide +kernel
  have hremove : domainStep ⟨8080, none⟩ twoDomainsSpace (.removeDomain "host.example.com") _ :=
    congrArg some (removeDomain_publicRow hname (by decide +kernel) (by decide +kernel)
      (by decide +kernel))
  have hspares : ¬ RemovesByPort twoDomains.rows "host.example.com" := by
    rintro ⟨hcolon, -⟩
    rw [hname] at hcolon
    simp at hcolon
  refine ⟨_, rfl, ?_, agreement_of_reaches ⟨8080, none⟩ Dns.freshSchedule fresh_freshSchedule
    twoDomainsSpace Dns.reach_firstZone rfl rfl rfl twoDomainsSpace_agrees _
    (.step (a := .resume 0 (fun _ => false) none)
      (.step (a := .resume 0 (fun _ => false) none)
        (.step (a := .resume 0 (fun _ => false) none)
          (.step (a := .dns .proceed)
            (.step (a := .dns (.take 2))
              (.step (a := .removeDomain "host.example.com") .refl hspares hremove) trivial rfl)
            trivial rfl)
          trivial rfl)
        trivial rfl)
      trivial rfl) rfl⟩
  rfl

/-- The zone that is kept after a removal by name and port. -/
theorem zone_kept_by_port :
    ¬ ∀ (config : CaddyConfig) (d₀ : Schedule) (_ : d₀.Fresh) (s₀ : DomainSpace)
      (_ : Reach Dns.scheduleStep (fun _ _ => True) d₀ s₀.dns)
      (_ : s₀.dns.provider.servesPublicZones = true) (_ : s₀.dns.waiting = [])
      (_ : s₀.dns.holder = none) (_ : s₀.Agrees) (s : DomainSpace)
      (_ : Reach (domainStep config) (fun _ _ => True) s₀ s) (_ : s.tasks = []), s.Agrees := by
  intro h
  obtain ⟨s, hreach, htasks, hzones, hrows⟩ : ∃ s, Reach (domainStep ⟨8080, none⟩) (fun _ _ => True)
      twoDomainsSpace s ∧ s.tasks = [] ∧ s.dns.provider.zones = ["host.example.com"] ∧
      s.table = oneDomain := by
    have hremove :
        domainStep ⟨8080, none⟩ twoDomainsSpace (.removeDomain "host.example.com:8443") _ :=
      congrArg some (removeDomain_publicRow (by decide +kernel) (by decide +kernel)
        (by decide +kernel) (by decide +kernel))
    refine ⟨_, .step (a := .resume 0 (fun _ => false) none)
      (.step (a := .resume 0 (fun _ => false) none)
        (.step (a := .resume 0 (fun _ => false) none)
          (.step (a := .dns .proceed)
            (.step (a := .dns .proceed)
              (.step (a := .dns (.take 2)) (.step .refl trivial hremove) trivial rfl)
              trivial rfl)
            trivial rfl)
          trivial rfl)
        trivial rfl)
      trivial rfl, rfl, rfl, rfl⟩
  have hagrees := h ⟨8080, none⟩ Dns.freshSchedule fresh_freshSchedule twoDomainsSpace
    Dns.reach_firstZone rfl rfl rfl twoDomainsSpace_agrees s hreach htasks
  have hperm := hagrees.zones
  rw [hzones, hrows] at hperm
  have hempty : (publicZones oneDomain.rows).Perm [] := by
    rw [show oneDomain.rows = [localRow] by decide +kernel]
    exact publicZones_localRow
  exact absurd (hperm.trans hempty).length_eq (by simp)

end OpenHost.Web
