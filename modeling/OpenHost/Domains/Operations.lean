import Mathlib.Data.List.Count
import OpenHost.Apps.State
import OpenHost.Domains.State
import OpenHost.Library.Transactions

/-!
# The operations on the domains table

`seed_domains`, `upsert_record`, the two removals, `set_primary_domain` and `set_record_status` as
programs over a database with the two tables they touch.
-/

namespace OpenHost.Domains

open Text (lower before)
open Tx (Prog)

/-! ## The tables -/

/-- The constraints on `domains`: the primary key, and `idx_domains_one_primary`. -/
structure Constraints (domains : List DomainRecord) : Prop where
  names : (domains.map DomainRecord.name).Nodup
  primary : domains.countP (·.isPrimary) ≤ 1

instance (domains : List DomainRecord) : Decidable (Constraints domains) :=
  decidable_of_iff ((domains.map DomainRecord.name).Nodup ∧ domains.countP (·.isPrimary) ≤ 1)
    ⟨fun h => ⟨h.1, h.2⟩, fun h => ⟨h.names, h.primary⟩⟩

/-- The tables `domains`, in the order in which rows were inserted, and `apps`. -/
structure Tables where
  domains : List DomainRecord
  apps : List Apps.Row
  constraints : Constraints domains

/-- What can be raised. -/
inductive DomainError where
  | integrity
  | domainNotFound (name : String)
  | noPrimary
  | appsBusy (names : List String)
  | changedConcurrently
  /-- An error of the database itself, such as a lock that is not given up or a full disk. -/
  | operational
  deriving DecidableEq, Repr

namespace Tables

/-- The outcome of a statement that leaves these rows: it is refused where they break a
constraint. -/
def write (t : Tables) (domains : List DomainRecord) (count : Nat) :
    Except DomainError (Tables × Nat) :=
  if h : Constraints domains then .ok (⟨domains, t.apps, h⟩, count) else .error .integrity

/-- `INSERT INTO domains` -/
def insert (r : DomainRecord) (t : Tables) : Except DomainError (Tables × Nat) :=
  t.write (t.domains ++ [r]) 1

/-- `UPDATE domains SET … WHERE …` -/
def update (p : DomainRecord → Bool) (f : DomainRecord → DomainRecord) (t : Tables) :
    Except DomainError (Tables × Nat) :=
  t.write (t.domains.map fun r => if p r then f r else r) (t.domains.countP p)

/-- `DELETE FROM domains WHERE …` -/
def delete (p : DomainRecord → Bool) (t : Tables) : Except DomainError (Tables × Nat) :=
  t.write (t.domains.filter (!p ·)) (t.domains.countP p)

/-- `UPDATE apps SET …` -/
def updateApps (f : Apps.Row → Apps.Row) (t : Tables) : Except DomainError (Tables × Nat) :=
  .ok (⟨t.domains, t.apps.map f, t.constraints⟩, t.apps.length)

/-- How many rows are primary. -/
def primaries (t : Tables) : Nat := t.domains.countP (·.isPrimary)

/-- The name of the primary domain. -/
def primaryName (t : Tables) : Option String :=
  (t.domains.find? (·.isPrimary)).map DomainRecord.name

end Tables

/-- `get_record` -/
def getRecord (domains : List DomainRecord) (name : String) : Option DomainRecord :=
  domains.find? fun r => lower (before ':' r.name) = lower (before ':' name)

/-! ## The operations -/

/-- The operations, with their arguments. -/
inductive DomainOp where
  | seedDomains (primary : Domain) (extras : List DomainRecord)
  | upsertRecord (record : DomainRecord)
  | removeRecord (name : String)
  | removeNonPrimaryRecord (name : String)
  | setPrimaryDomain (name : String)
  | setRecordStatus (name : String) (certStatus : DomainCertStatus) (errorMessage : Option String)
  deriving DecidableEq, Repr

/-- Programs over the two tables; the result is `None`, or a `bool`. -/
abbrev DomainProg := Prog Tables DomainError (Option Bool)

/-- One turn of the loop over `extras`: the hosts seen so far, and the rows. -/
def addExtra (acc : List String × List DomainRecord) (rec : DomainRecord) :
    List String × List DomainRecord :=
  let host := before ':' rec.name
  if host ∈ acc.1 then acc
  else (host :: acc.1, acc.2 ++ [{ rec with isPrimary := false }])

/-- The rows that `seed_domains` inserts. -/
def seedRows (primary : Domain) (extras : List DomainRecord) : List DomainRecord :=
  let row : DomainRecord :=
    { name := primary.name, tls := primary.tls, mdns := primary.mdns, isPrimary := true }
  (extras.foldl addExtra ([primary.nameNoPort], [row])).2

/-- `seed_domains` -/
def seedDomains (primary : Domain) (extras : List DomainRecord) : DomainProg :=
  .select fun t =>
    if t.domains = [] then
      .executeAll ((seedRows primary extras).map Tables.insert) (.commit (.ret (some true)))
    else .ret (some false)

/-- The row that `ON CONFLICT(name) DO UPDATE` leaves: the primary flag stays. -/
def replaceFields (record r : DomainRecord) : DomainRecord :=
  { r with tls := record.tls, mdns := record.mdns, certStatus := record.certStatus,
           errorMessage := record.errorMessage }

/-- `INSERT INTO domains … ON CONFLICT(name) DO UPDATE SET …` -/
def upsert (record : DomainRecord) (t : Tables) : Except DomainError (Tables × Nat) :=
  if t.domains.any (·.name = record.name) then
    t.update (·.name = record.name) (replaceFields record)
  else t.insert record

/-- `upsert_record` -/
def upsertRecord (record : DomainRecord) : DomainProg :=
  .execute (upsert { record with name := lower record.name }) fun _ => .commit (.ret none)

/-- `remove_record` -/
def removeRecord (name : String) : DomainProg :=
  .execute (Tables.delete (·.name = lower name)) fun rowcount =>
    .commit (.ret (some (0 < rowcount)))

/-- `remove_non_primary_record` -/
def removeNonPrimaryRecord (name : String) : DomainProg :=
  .execute (Tables.delete fun r => r.name = lower name && !r.isPrimary) fun rowcount =>
    .commit (.ret (some (0 < rowcount)))

/-- `set_record_status` -/
def setRecordStatus (name : String) (certStatus : DomainCertStatus)
    (errorMessage : Option String) : DomainProg :=
  .execute (Tables.update (·.name = lower name)
    fun r => { r with certStatus := certStatus, errorMessage := errorMessage }) fun _ =>
    .commit (.ret none)

/-- The status of an app keeps `set_primary_domain` from going on. -/
def isBusy (r : Apps.Row) : Bool :=
  r.status = .building || r.status = .starting || r.status = .removing

/-- `SELECT name FROM apps WHERE status IN (…) ORDER BY name` -/
def busyApps (apps : List Apps.Row) : List String :=
  ((apps.filter isBusy).map Apps.Row.name).mergeSort fun a b => decide (a ≤ b)

/-- An app that is live is handed to the recovery at the next start. -/
def handToRecovery (r : Apps.Row) : Apps.Row :=
  if r.status = .running || (r.status = .error && r.containerId.isSome) then
    { r with status := .starting, errorMessage := some Apps.primaryDomainRestartMarker }
  else r

/-- The part of `set_primary_domain` after its checks. -/
def promote (currentName targetName : String) : DomainProg :=
  .execute (Tables.update (fun r => r.name = currentName && r.isPrimary)
    fun r => { r with isPrimary := false }) fun demoted =>
  .execute (Tables.update (fun r => r.name = targetName && !r.isPrimary)
    fun r => { r with isPrimary := true }) fun promoted =>
  if demoted ≠ 1 || promoted ≠ 1 then .throw .changedConcurrently
  else .execute (Tables.updateApps handToRecovery) fun _ => .commit (.ret (some true))

/-- `set_primary_domain`; what it raises after `BEGIN IMMEDIATE` is followed by a `ROLLBACK`. -/
def setPrimaryDomain (name : String) : DomainProg :=
  let targetName := lower (before ':' name)
  .begin <| .select fun t =>
    match getRecord t.domains targetName with
    | none => .throw (.domainNotFound targetName)
    | some target => .select fun t =>
        match t.primaryName with
        | none => .throw .noPrimary
        | some currentName =>
            if target.name = currentName then .commit (.ret (some false))
            else .select fun t =>
              match busyApps t.apps with
              | [] => promote currentName target.name
              | busy => .throw (.appsBusy busy)

/-- The program of an operation. -/
def program : DomainOp → DomainProg
  | .seedDomains primary extras => seedDomains primary extras
  | .upsertRecord record => upsertRecord record
  | .removeRecord name => removeRecord name
  | .removeNonPrimaryRecord name => removeNonPrimaryRecord name
  | .setPrimaryDomain name => setPrimaryDomain name
  | .setRecordStatus name certStatus errorMessage => setRecordStatus name certStatus errorMessage

end OpenHost.Domains
