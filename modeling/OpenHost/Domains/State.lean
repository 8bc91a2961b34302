import OpenHost.Library.Casing

/-!
# The domains an instance answers on

The rows of the `domains` table, and which of the domains owns a host.
-/

namespace OpenHost.Domains

open Text (lower before endsWith)

/-- `DomainCertStatus` -/
inductive DomainCertStatus where
  | none
  | acquiring
  | active
  | error
  deriving DecidableEq, Repr

/-- `DomainRecord`: a row of the `domains` table. -/
structure DomainRecord where
  name : String
  tls : Bool
  mdns : Bool
  certStatus : DomainCertStatus := .none
  errorMessage : Option String := none
  isPrimary : Bool := false
  deriving DecidableEq, Repr

/-- `Domain`: a hostname the instance answers on. -/
structure Domain where
  name : String
  tls : Bool
  mdns : Bool
  deriving DecidableEq, Repr

namespace Domain

/-- `Domain(name, tls, mdns)`: the converter of the class puts the name in lower case. -/
def ofName (name : String) (tls mdns : Bool) : Domain := ⟨lower name, tls, mdns⟩

/-- `Domain.name_no_port` -/
def nameNoPort (d : Domain) : String := before ':' d.name

/-- `Domain.scheme` -/
def scheme (d : Domain) : String := if d.tls then "https" else "http"

/-- `host.split(":")[0].lower()` -/
def hostNoPort (host : String) : String := lower (before ':' host)

/-- `Domain.owns` -/
def owns (d : Domain) (host : String) : Bool :=
  -- an empty name would own every host that ends in a dot
  d.nameNoPort ≠ "" &&
    (hostNoPort host = d.nameNoPort || endsWith (hostNoPort host) ("." ++ d.nameNoPort))

/-- `Domain.is_app_subdomain` -/
def isAppSubdomain (d : Domain) (host : String) : Bool :=
  d.owns host && hostNoPort host ≠ d.nameNoPort

end Domain

/-- `DomainRecord.to_domain` -/
def DomainRecord.toDomain (r : DomainRecord) : Domain := Domain.ofName r.name r.tls r.mdns

/-- `load_records`: `ORDER BY is_primary DESC, name` -/
def loadRecords (rows : List DomainRecord) : List DomainRecord :=
  let byName := (rows.mergeSort fun r s => decide (r.name ≤ s.name))
  byName.filter (·.isPrimary) ++ byName.filter (!·.isPrimary)

/-- `effective_domains` -/
def effectiveDomains (rows : List DomainRecord) : List Domain :=
  (loadRecords rows).map DomainRecord.toDomain

/-- One turn of the loop of `Domain.match`: `domain` replaces the best one so far when it owns the
host under a longer name. -/
def better (host : String) (best : Option Domain) (domain : Domain) : Option Domain :=
  if domain.owns host &&
      best.all (fun b => decide (b.nameNoPort.length < domain.nameNoPort.length)) then
    some domain
  else best

/-- `Domain.match`: the most specific domain that owns the host. -/
def matchDomain (rows : List DomainRecord) (host : String) : Option Domain :=
  (effectiveDomains rows).foldl (better host) none

/-! ## Reading the table -/

theorem mem_loadRecords {rows : List DomainRecord} {r : DomainRecord} :
    r ∈ loadRecords rows ↔ r ∈ rows := by
  simp only [loadRecords, List.mem_append, List.mem_filter, List.mem_mergeSort]
  cases r.isPrimary <;> simp

theorem mem_effectiveDomains {rows : List DomainRecord} {d : Domain} :
    d ∈ effectiveDomains rows ↔ ∃ r ∈ rows, r.toDomain = d := by
  simp [effectiveDomains, mem_loadRecords]

/-! ## The most specific owner of a host -/

/-- `d` owns the host, and no domain of the list that owns it has a longer name. -/
structure MostSpecific (ds : List Domain) (host : String) (d : Domain) : Prop where
  mem : d ∈ ds
  owns : d.owns host = true
  longest : ∀ e ∈ ds, e.owns host = true → e.nameNoPort.length ≤ d.nameNoPort.length

/-- What the loop has found after a part of the list. -/
theorem foldl_better (host : String) (ds seen : List Domain) (best : Option Domain)
    (hnone : best = none → ∀ d ∈ seen, d.owns host = false)
    (hsome : ∀ b, best = some b → MostSpecific seen host b) :
    (ds.foldl (better host) best = none → ∀ d ∈ seen ++ ds, d.owns host = false) ∧
    (∀ b, ds.foldl (better host) best = some b → MostSpecific (seen ++ ds) host b) := by
  induction ds generalizing seen best with
  | nil => simpa using ⟨hnone, hsome⟩
  | cons d ds ih =>
    -- the loop goes on with `d` among the domains it has seen
    have step := ih (seen ++ [d]) (better host best d)
    rw [List.append_assoc, List.singleton_append] at step
    apply step
    · intro hbest e he
      have hkeep : best = none ∧ d.owns host = false := by
        cases best with
        | none => simpa [better] using hbest
        | some b => exfalso; simp only [better] at hbest; split at hbest <;> cases hbest
      rcases List.mem_append.mp he with he | he
      · exact hnone hkeep.1 e he
      · rw [List.mem_singleton.mp he]
        exact hkeep.2
    · intro b hb
      by_cases htake : d.owns host = true ∧
          best.all (fun b => decide (b.nameNoPort.length < d.nameNoPort.length)) = true
      · have hbd : b = d := by
          rw [better, if_pos (by simpa using htake)] at hb
          exact (Option.some.inj hb).symm
        subst hbd
        refine ⟨by simp, htake.1, ?_⟩
        intro e he howns
        rcases List.mem_append.mp he with he | he
        · cases hbest : best with
          | none => rw [hnone hbest e he] at howns; cases howns
          | some c =>
            have hlt : c.nameNoPort.length < b.nameNoPort.length := by
              simpa [hbest] using htake.2
            have hle := (hsome c hbest).longest e he howns
            omega
        · rw [List.mem_singleton.mp he]
      · have hbb : best = some b := by
          rw [better, if_neg (by simpa using htake)] at hb
          exact hb
        have hb' := hsome b hbb
        refine ⟨List.mem_append_left _ hb'.mem, hb'.owns, ?_⟩
        intro e he howns
        rcases List.mem_append.mp he with he | he
        · exact hb'.longest e he howns
        · rw [List.mem_singleton.mp he] at howns ⊢
          have hle : ¬ b.nameNoPort.length < d.nameNoPort.length := by
            intro hlt
            exact htake ⟨howns, by simpa [hbb] using hlt⟩
          omega

theorem matchDomain_eq_none_iff {rows : List DomainRecord} {host : String} :
    matchDomain rows host = none ↔ ∀ d ∈ effectiveDomains rows, d.owns host = false := by
  have h := foldl_better host (effectiveDomains rows) [] none (by simp) (by simp)
  constructor
  · intro hm
    simpa using h.1 hm
  · intro hall
    cases hm : matchDomain rows host with
    | none => rfl
    | some b =>
      have hb := h.2 b hm
      have howns := hall b (by simpa using hb.mem)
      rw [hb.owns] at howns
      cases howns

theorem mostSpecific_of_matchDomain {rows : List DomainRecord} {host : String} {d : Domain}
    (h : matchDomain rows host = some d) : MostSpecific (effectiveDomains rows) host d := by
  have hb := (foldl_better host (effectiveDomains rows) [] none (by simp) (by simp)).2 d h
  simpa using hb

end OpenHost.Domains
