import Mathlib.Data.List.Count
import Mathlib.Logic.Function.Basic
import Mathlib.Algebra.BigOperators.Group.List.Basic
import Mathlib.Algebra.GroupWithZero.Nat

/-!
# Default apps over many boots

`deploy_default_apps`: every boot goes through the configured default apps, and a file, the sentinel,
says what has become of each.  The file is written once, after the last of them.
-/

namespace OpenHost.Install

/-! ## One boot -/

/-- `status` of a record or an outcome. -/
inductive RecordStatus where
  | ok
  | skipped
  | failed
  deriving DecidableEq, Repr

/-- A record of the sentinel. -/
structure Record where
  status : RecordStatus
  attempts : ℕ
  error : Option String
  deriving DecidableEq, Repr

/-- The records of the sentinel, by spec. -/
abbrev Sentinel := String → Option Record

/-- `DefaultAppOutcome` -/
structure DefaultAppOutcome where
  name : String
  status : RecordStatus
  attempts : ℕ
  error : Option String
  deriving DecidableEq, Repr

/-- `MAX_RETRY_ATTEMPTS` -/
def maxRetryAttempts : ℕ := 3

/-- The variables of the loop, and the specs that were attempted. -/
structure Deploy where
  sentinel : Sentinel
  outcomes : List DefaultAppOutcome
  attempted : List String

/-- What the attempts of one boot come to, the first, the second and so on: `status` and `error`. -/
abbrev Attempts := ℕ → RecordStatus × Option String

/-- One spec of the list. -/
def Deploy.spec (install : Attempts) (d : Deploy) (spec : String) : Deploy :=
  let priorStatus := (d.sentinel spec).map Record.status
  let priorAttempts := ((d.sentinel spec).map Record.attempts).getD 0
  if priorStatus = some .ok ∨ priorStatus = some .skipped then
    { d with
      outcomes := d.outcomes ++ [⟨spec, priorStatus.getD .ok, priorAttempts, none⟩] }
  else if priorStatus = some .failed ∧ priorAttempts ≥ maxRetryAttempts then
    { d with
      outcomes := d.outcomes ++
        [⟨spec, .failed, priorAttempts, (d.sentinel spec).bind Record.error⟩] }
  else
    let result := install d.attempted.length
    let attempts := if result.1 = .failed then priorAttempts + 1 else 1
    { sentinel := Function.update d.sentinel spec (some ⟨result.1, attempts, result.2⟩)
      outcomes := d.outcomes ++ [⟨spec, result.1, attempts, result.2⟩]
      attempted := d.attempted ++ [spec] }

/-- The loop over the specs. -/
def Deploy.loop (install : Attempts) (d : Deploy) (specs : List String) : Deploy :=
  specs.foldl (Deploy.spec install) d

/-- `deploy_default_apps`, up to its loop. -/
def startDeploy (sentinel : Sentinel) : Deploy := ⟨sentinel, [], []⟩

/-! ## Many boots -/

/-- One boot: the configured list, what the attempts come to, and, where the boot crashes before the
sentinel is written, how many specs it has taken up. -/
structure Boot where
  defaultApps : List String
  install : Attempts
  crash : Option ℕ

/-- The sentinel on disk, and the specs that were attempted so far. -/
structure BootLog where
  sentinel : Sentinel
  attempted : List String

/-- `deploy_default_apps` in one boot: a crash leaves the file as it was, and so does an empty list. -/
def BootLog.boot (log : BootLog) (b : Boot) : BootLog :=
  match b.crash with
  | some n =>
    { log with
      attempted := log.attempted ++
        ((startDeploy log.sentinel).loop b.install (b.defaultApps.take n)).attempted }
  | none =>
    if b.defaultApps = [] then log
    else
      let d := (startDeploy log.sentinel).loop b.install b.defaultApps
      ⟨d.sentinel, log.attempted ++ d.attempted⟩

/-- The boots from the first one on, which finds no sentinel. -/
def bootAll (boots : List Boot) : BootLog := boots.foldl BootLog.boot ⟨fun _ => none, []⟩

/-! ## What one spec does -/

/-- The record says that the spec is not attempted any more, having succeeded. -/
def Settled (r : Option Record) : Prop :=
  r.map Record.status = some .ok ∨ r.map Record.status = some .skipped

/-- How many attempts a record stands for, at most. -/
def used : Option Record → ℕ
  | none => 0
  | some r => if r.status = .failed then r.attempts else maxRetryAttempts

/-- No record stands for more attempts than there may be. -/
def Bounded (s : Sentinel) : Prop := ∀ spec, used (s spec) ≤ maxRetryAttempts

variable {install : Attempts} {d d' : Deploy} {specs : List String} {spec name : String}

/-- What going from one state of the loop to a later one does, for each spec: the new attempts are
covered by what its record stands for, and are no more than its entries in the list; and without an entry
or once it has succeeded, its record stays and there is no attempt. -/
structure Goes (d : Deploy) (specs : List String) (d' : Deploy) : Prop where
  bounded : Bounded d'.sentinel
  covered : ∀ name, d'.attempted.count name + used (d.sentinel name) ≤
    d.attempted.count name + used (d'.sentinel name)
  entries : ∀ name, d'.attempted.count name ≤ d.attempted.count name + specs.count name
  kept : ∀ name, name ∉ specs ∨ Settled (d.sentinel name) →
    d'.sentinel name = d.sentinel name ∧ d'.attempted.count name = d.attempted.count name

theorem goes_refl (h : Bounded d.sentinel) : Goes d [] d where
  bounded := h
  covered := fun _ => Nat.le_refl _
  entries := fun _ => by simp
  kept := fun _ _ => ⟨rfl, rfl⟩

/-- A spec is left alone, or it is attempted: then it has not succeeded before, and its new record
stands for one attempt more. -/
theorem spec_cases (h : Bounded d.sentinel) (install : Attempts) (spec : String) :
    (d.spec install spec).sentinel = d.sentinel ∧ (d.spec install spec).attempted = d.attempted ∨
    ¬ Settled (d.sentinel spec) ∧ ∃ r, used (d.sentinel spec) + 1 ≤ used (some r) ∧
      used (some r) ≤ maxRetryAttempts ∧
      (d.spec install spec).sentinel = Function.update d.sentinel spec (some r) ∧
      (d.spec install spec).attempted = d.attempted ++ [spec] := by
  unfold Deploy.spec
  dsimp only
  split
  · exact .inl ⟨rfl, rfl⟩
  · split
    · exact .inl ⟨rfl, rfl⟩
    · next hsettled hspent =>
      refine .inr ⟨hsettled, _, ?_, ?_, rfl, rfl⟩
      all_goals
        have hbound := h spec
        cases hprior : d.sentinel spec with
        | none => cases hres : (install d.attempted.length).1 <;> simp [used, maxRetryAttempts]
        | some r =>
          have hstatus : r.status = .failed := by
            cases hstatus : r.status <;> simp_all
          have hattempts : r.attempts < maxRetryAttempts := by
            simpa [hprior, hstatus] using hspent
          cases hres : (install d.attempted.length).1 <;> simp [used, hstatus]
          all_goals omega

theorem goes_spec (h : Bounded d.sentinel) (install : Attempts) (spec : String) :
    Goes d [spec] (d.spec install spec) := by
  rcases spec_cases h install spec with ⟨hsentinel, hattempted⟩ |
    ⟨hopen, r, hmore, hmax, hsentinel, hattempted⟩
  · constructor
    · rwa [hsentinel]
    · simp [hsentinel, hattempted]
    · simp [hattempted]
    · simp [hsentinel, hattempted]
  · constructor
    · intro name
      rw [hsentinel]
      rcases eq_or_ne name spec with rfl | hne
      · rwa [Function.update_self]
      · rw [Function.update_of_ne hne]
        exact h name
    · intro name
      rw [hsentinel, hattempted, List.count_append]
      rcases eq_or_ne name spec with rfl | hne
      · rw [Function.update_self, List.count_singleton_self]
        omega
      · rw [Function.update_of_ne hne, List.count_singleton, if_neg (by simpa using hne.symm)]
        exact Nat.le_refl _
    · intro name
      exact Nat.le_of_eq (by rw [hattempted, List.count_append])
    · intro name hkept
      have hne : name ≠ spec := by
        rintro rfl
        rcases hkept with hmem | hsettled
        · exact hmem (List.mem_singleton_self _)
        · exact hopen hsettled
      rw [hsentinel, hattempted, List.count_append, List.count_singleton,
        if_neg (by simpa using hne.symm)]
      exact ⟨Function.update_of_ne hne _ _, rfl⟩

/-- One spec and then the rest of the list. -/
theorem Goes.cons (h : Goes d [spec] d') {d'' : Deploy} (h' : Goes d' specs d'') :
    Goes d (spec :: specs) d'' where
  bounded := h'.bounded
  covered := fun name => by
    have hfirst := h.covered name
    have hrest := h'.covered name
    omega
  entries := fun name => by
    have hfirst := h.entries name
    have hrest := h'.entries name
    rw [List.count_cons]
    rw [List.count_singleton] at hfirst
    omega
  kept := fun name hkept => by
    have hfirst : name ∉ [spec] ∨ Settled (d.sentinel name) :=
      hkept.imp_left fun hmem hname => hmem (by simp_all)
    obtain ⟨hsame, hcount⟩ := h.kept name hfirst
    have hrest : name ∉ specs ∨ Settled (d'.sentinel name) :=
      hkept.imp (fun hmem hname => hmem (List.mem_cons_of_mem _ hname)) fun hs => by rwa [hsame]
    obtain ⟨hsame', hcount'⟩ := h'.kept name hrest
    exact ⟨hsame'.trans hsame, hcount'.trans hcount⟩

theorem goes_loop (h : Bounded d.sentinel) (install : Attempts) (specs : List String) :
    Goes d specs (d.loop install specs) := by
  induction specs generalizing d with
  | nil => exact goes_refl h
  | cons spec specs ih =>
    have hfirst := goes_spec h install spec
    exact hfirst.cons (ih hfirst.bounded)

/-! ## What the boots do -/

/-- How often a crashed boot may have attempted a spec: once for each entry of its list, and no more than
the attempts there may be at all. -/
def crashAllowance (name : String) (b : Boot) : ℕ :=
  if b.crash.isSome then min (b.defaultApps.count name) maxRetryAttempts else 0

variable {log : BootLog} {b : Boot}

/-- What one boot does, for each spec. -/
structure Boots (log : BootLog) (allowance : String → ℕ) (log' : BootLog) : Prop where
  bounded : Bounded log'.sentinel
  covered : ∀ name, log'.attempted.count name + used (log.sentinel name) ≤
    log.attempted.count name + allowance name + used (log'.sentinel name)
  settled : ∀ name, Settled (log.sentinel name) →
    log'.sentinel name = log.sentinel name ∧ log'.attempted.count name = log.attempted.count name

theorem boots_boot (h : Bounded log.sentinel) (b : Boot) :
    Boots log (fun name => crashAllowance name b) (log.boot b) := by
  have hstart : Bounded (startDeploy log.sentinel).sentinel := h
  unfold BootLog.boot
  cases hcrash : b.crash with
  | some n =>
    -- what the file says is what it said before, so the attempts of the boot are to be allowed for
    have hloop := goes_loop hstart b.install (b.defaultApps.take n)
    refine ⟨h, fun name => ?_, fun name hsettled => ⟨rfl, ?_⟩⟩
    · have hentries := hloop.entries name
      have hcovered := hloop.covered name
      have hbound := hloop.bounded name
      have htake : (b.defaultApps.take n).count name ≤ b.defaultApps.count name :=
        (List.take_sublist n b.defaultApps).count_le name
      have hzero : (startDeploy log.sentinel).attempted.count name = 0 := rfl
      simp only [List.count_append, crashAllowance, hcrash, Option.isSome_some, if_true]
      omega
    · have hnone := (hloop.kept name (.inr hsettled)).2
      have hzero : (startDeploy log.sentinel).attempted.count name = 0 := rfl
      simp only [List.count_append]
      omega
  | none =>
    dsimp only
    split
    · exact ⟨h, fun name => by omega, fun name _ => ⟨rfl, rfl⟩⟩
    · have hloop := goes_loop hstart b.install b.defaultApps
      refine ⟨hloop.bounded, fun name => ?_, fun name hsettled => ?_⟩
      · have hcovered := hloop.covered name
        simp only [startDeploy, List.count_nil] at hcovered
        simp only [startDeploy, List.count_append]
        omega
      · obtain ⟨hsame, hnone⟩ := hloop.kept name (.inr hsettled)
        have hzero : (startDeploy log.sentinel).attempted.count name = 0 := rfl
        refine ⟨hsame, ?_⟩
        simp only [List.count_append]
        omega

/-- What many boots do. -/
theorem boots_foldl (h : Bounded log.sentinel) (boots : List Boot) :
    Boots log (fun name => (boots.map (crashAllowance name)).sum) (boots.foldl BootLog.boot log) := by
  induction boots generalizing log with
  | nil => exact ⟨h, fun name => by simp, fun name _ => ⟨rfl, rfl⟩⟩
  | cons b boots ih =>
    have hfirst := boots_boot h b
    have hrest := ih hfirst.bounded
    refine ⟨hrest.bounded, fun name => ?_, fun name hsettled => ?_⟩
    · have hcovered := hfirst.covered name
      have hcovered' := hrest.covered name
      simp only [List.foldl_cons, List.map_cons, List.sum_cons]
      omega
    · obtain ⟨hsame, hcount⟩ := hfirst.settled name hsettled
      obtain ⟨hsame', hcount'⟩ := hrest.settled name (by rwa [hsame])
      exact ⟨hsame'.trans hsame, hcount'.trans hcount⟩

/-- A boot whose list has no entry for a spec leaves its record. -/
theorem sentinel_boot_of_not_mem (h : Bounded log.sentinel) {name : String}
    (hname : name ∉ b.defaultApps) :
    (log.boot b).sentinel name = log.sentinel name := by
  have hstart : Bounded (startDeploy log.sentinel).sentinel := h
  unfold BootLog.boot
  split
  · rfl
  · split
    · rfl
    · exact ((goes_loop hstart b.install b.defaultApps).kept name (.inl hname)).1

theorem sentinel_foldl_of_not_mem (h : Bounded log.sentinel) {name : String} {boots : List Boot}
    (hname : ∀ b ∈ boots, name ∉ b.defaultApps) :
    (boots.foldl BootLog.boot log).sentinel name = log.sentinel name := by
  induction boots generalizing log with
  | nil => rfl
  | cons b boots ih =>
    have hfirst := sentinel_boot_of_not_mem h (hname b List.mem_cons_self)
    have hrest := ih (boots_boot h b).bounded fun b' hb' => hname b' (List.mem_cons_of_mem _ hb')
    exact hrest.trans hfirst

@[simp] theorem used_none : used none = 0 := rfl

theorem bounded_empty : Bounded fun _ => none := fun _ => Nat.zero_le _

/-- For every sequence of boots: a spec that has succeeded is never attempted again; a spec is attempted
at most `MAX_RETRY_ATTEMPTS` times, and in each boot that crashed before the sentinel was written at most
once for each entry of its list; and boots whose lists have no entry for a spec leave its record. -/
theorem bootAll_spec (boots more : List Boot) (name : String) :
    (Settled ((bootAll boots).sentinel name) →
      (bootAll (boots ++ more)).attempted.count name = (bootAll boots).attempted.count name) ∧
    (bootAll boots).attempted.count name ≤
      maxRetryAttempts + (boots.map (crashAllowance name)).sum ∧
    ((∀ b ∈ more, name ∉ b.defaultApps) →
      (bootAll (boots ++ more)).sentinel name = (bootAll boots).sentinel name) := by
  have hboots : Boots _ _ (bootAll boots) := boots_foldl bounded_empty boots
  have hsplit : bootAll (boots ++ more) = more.foldl BootLog.boot (bootAll boots) := by
    rw [bootAll, List.foldl_append]
    rfl
  refine ⟨fun hsettled => ?_, ?_, fun hmore => ?_⟩
  · rw [hsplit]
    exact ((boots_foldl hboots.bounded more).settled name hsettled).2
  · have hcovered := hboots.covered name
    have hbound := hboots.bounded name
    simp only [used_none, List.count_nil] at hcovered
    omega
  · rw [hsplit]
    exact sentinel_foldl_of_not_mem hboots.bounded hmore

/-- A boot in which no attempt succeeds. -/
def failingBoot (defaultApps : List String) (crash : Option ℕ) : Boot :=
  ⟨defaultApps, fun _ => (.failed, some "clone: unknown error"), crash⟩

/-- A spec that is configured twice is attempted twice in the one boot that crashes, and three times
more. -/
theorem attempted_twice_in_crash :
    (bootAll [failingBoot ["notes", "notes"] (some 2), failingBoot ["notes"] none,
        failingBoot ["notes"] none, failingBoot ["notes"] none]).attempted.count "notes" = 5 ∧
      ¬ 5 ≤ maxRetryAttempts + 1 := by
  decide

end OpenHost.Install
