import Mathlib.Algebra.Order.Ring.Int
import Mathlib.Data.Nat.Cast.Basic
import Mathlib.Tactic.Push
import OpenHost.Library.Runs
import OpenHost.Update.MigrationLog

/-!
# Runs of the system migrations

`migrations/runner.py`.  A run reads from the log at which version the host is, applies the
migrations above it in order, and appends an entry for each.  It stops at the first one that fails;
the process can die at any point, also in the middle of an append.
-/

namespace OpenHost.Update

open Json Lines
open Utf8 (Bytes encode)

/-! ## The current version -/

/-- `bool(v)`.  A float too small to be told from zero is left out. -/
def truthy : Value → Bool
  | .null => false
  | .bool b => b
  | .int n => n ≠ 0
  | .float text =>
      (text.takeWhile fun c => c ≠ 'e' && c ≠ 'E').any fun c => c.isAlpha || ('1' ≤ c && c ≤ '9')
  | .str s => s ≠ []
  | .list items => !items.isEmpty
  | .dict members => !members.isEmpty

/-- `current_host_version` -/
def currentHostVersion (entries : List MigrationLogEntry) : Value :=
  match entries.reverse.find? fun entry => truthy entry.success with
  | some entry => entry.version
  | none => .int 0

/-- The number that a version is compared as; `none` where the comparison raises.  Floats, of which no
log has one, are left out. -/
def versionNumber? : Value → Option Int
  | .int n => some n
  | .bool b => some (if b then 1 else 0)
  | _ => none

/-! ## One run -/

/-- What a migration does when it is applied. -/
inductive Up where
  | returns
  /-- It raises an `Exception` with this text. -/
  | raises (text : PyStr)
  /-- The process dies. -/
  | dies

/-- What comes of an append. -/
inductive LogWrite where
  | complete
  /-- After so many characters it fails, or the process dies. -/
  | stops (written : Nat)

/-- What the runner meets. -/
structure World where
  /-- `os.geteuid() == 0` -/
  root : Bool
  up : Int → Up
  /-- The time when the entry for a version is made. -/
  time : Int → PyStr
  write : Int → LogWrite

/-- What a run leaves: the log, the versions whose `up` was called, and whether it returned. -/
structure Run where
  file : Option Bytes
  ran : List Int
  returned : Bool

/-- The entry for a version. -/
def entryFor (w : World) (version : Int) (error : Option PyStr) : NewEntry where
  version := version
  timestamp := w.time version
  success := error.isNone
  error := error

/-- `append_entry`, and whether it returned. -/
def writeEntry (lim : Limits) (write : LogWrite) (file : Option Bytes) (e : NewEntry) :
    Option Bytes × Bool :=
  match appended lim (file.getD []) e with
  | .error _ => (file, false)
  | .ok line =>
    match write with
    | .complete => (some (file.getD [] ++ encode (String.ofList line)), true)
    | .stops written => (some (file.getD [] ++ encode (String.ofList (line.take written))), false)

/-- The loop over the registered versions. -/
def applyFrom (lim : Limits) (w : World) : List Int → Int → Option Bytes → Run
  | [], _, file => ⟨file, [], true⟩
  | version :: versions, current, file =>
      if version ≤ current then applyFrom lim w versions current file
      else
        match w.up version with
        | .dies => ⟨file, [version], false⟩
        | .raises text =>
            ⟨(writeEntry lim (w.write version) file (entryFor w version (some text))).1, [version],
              false⟩
        | .returns =>
          match writeEntry lim (w.write version) file (entryFor w version none) with
          | (file, false) => ⟨file, [version], false⟩
          | (file, true) =>
              let rest := applyFrom lim w versions version file
              ⟨rest.file, version :: rest.ran, rest.returned⟩

/-- `validate_registry`, of the versions. -/
def validateRegistry (versions : List Int) : Bool :=
  versions = (List.range versions.length).map fun i : Nat => 2 + (i : Int)

/-- `latest_registry_version` -/
def latestRegistryVersion (versions : List Int) : Int := versions.getLast?.getD 1

/-- `apply_system_migrations` with a registry of these versions. -/
def applySystemMigrations (lim : Limits) (w : World) (versions : List Int) (file : Option Bytes) :
    Run :=
  let refused : Run := ⟨file, [], false⟩
  if validateRegistry versions = false then refused
  else if w.root = false then refused
  else
    match readLog lim file with
    | .error _ => refused
    | .ok entries =>
      match versionNumber? (currentHostVersion entries) with
      | none => refused
      | some current =>
          if current = 0 then refused
          else if latestRegistryVersion versions < current then refused
          else applyFrom lim w versions current file

/-! ## The versions that were applied -/

/-- The versions for which a success is recorded. -/
def successes (entries : List MigrationLogEntry) : List Value :=
  (entries.filter fun entry => truthy entry.success).map MigrationLogEntry.version

theorem successes_append (as bs : List MigrationLogEntry) :
    successes (as ++ bs) = successes as ++ successes bs := by
  simp [successes]

/-- The current version is the last that was applied. -/
theorem currentHostVersion_eq (entries : List MigrationLogEntry) :
    currentHostVersion entries = (successes entries).getLast?.getD (.int 0) := by
  rw [currentHostVersion, successes, List.getLast?_map, List.getLast?_filter]
  cases entries.reverse.find? fun entry => truthy entry.success <;> rfl

/-- The log can be read, and the versions applied are `first`, `first + 1` and so on, `n` of them. -/
def Applied (lim : Limits) (file : Option Bytes) (first : Int) (n : Nat) : Prop :=
  ∃ entries, readLog lim file = .ok entries ∧
    successes entries = (List.range n).map fun i : Nat => Value.int (first + i)

section

variable {lim : Limits} {file : Option Bytes} {first : Int} {n : Nat}

theorem currentHostVersion_of_applied {entries : List MigrationLogEntry}
    (h : successes entries = (List.range (n + 1)).map fun i : Nat => Value.int (first + i)) :
    currentHostVersion entries = .int (first + n) := by
  rw [currentHostVersion_eq, h, List.range_succ, List.map_append]
  simp

/-- What the log says after an append. -/
theorem readLog_writeEntry {entries : List MigrationLogEntry} (hread : readLog lim file = .ok entries)
    (write : LogWrite) (e : NewEntry) :
    (readLog lim (writeEntry lim write file e).1 = .ok entries ∧
        (writeEntry lim write file e).2 = false) ∨
      readLog lim (writeEntry lim write file e).1 = .ok (entries ++ [e.readBack]) := by
  unfold writeEntry
  cases happ : appended lim (file.getD []) e with
  | error err => exact Or.inl ⟨hread, rfl⟩
  | ok line =>
    cases write with
    | complete =>
      refine Or.inr (readLog_appendEntry hread ?_)
      rw [appendEntry, happ]
      rfl
    | stops written => exact (readLog_cut hread happ written).imp_left fun h => ⟨h, rfl⟩

/-- A failure adds no version to those that were applied. -/
theorem applied_of_failure (h : Applied lim file first n) (w : World) (write : LogWrite)
    (version : Int) (text : PyStr) :
    Applied lim (writeEntry lim write file (entryFor w version (some text))).1 first n := by
  obtain ⟨entries, hread, hsucc⟩ := h
  rcases readLog_writeEntry hread write (entryFor w version (some text)) with ⟨hsame, -⟩ | hnew
  · exact ⟨entries, hsame, hsucc⟩
  · refine ⟨_, hnew, ?_⟩
    rw [successes_append, hsucc]
    exact List.append_nil _

/-- A success adds the next version, or nothing where the append did not return. -/
theorem applied_of_success (h : Applied lim file first n) (w : World) (write : LogWrite) :
    (Applied lim (writeEntry lim write file (entryFor w (first + n) none)).1 first n ∧
        (writeEntry lim write file (entryFor w (first + n) none)).2 = false) ∨
      Applied lim (writeEntry lim write file (entryFor w (first + n) none)).1 first (n + 1) := by
  obtain ⟨entries, hread, hsucc⟩ := h
  rcases readLog_writeEntry hread write (entryFor w (first + n) none) with ⟨hsame, hstop⟩ | hnew
  · exact Or.inl ⟨⟨entries, hsame, hsucc⟩, hstop⟩
  · refine Or.inr ⟨_, hnew, ?_⟩
    rw [successes_append, hsucc, List.range_succ, List.map_append]
    rfl

/-- What a run leaves of a log in which `n` versions from `first` on are applied. -/
structure RunSound (lim : Limits) (w : World) (first : Int) (n : Nat) (r : Run) : Prop where
  /-- The versions are run in order, and none that was applied before. -/
  inOrder : r.ran = (List.range r.ran.length).map fun i : Nat => first + n + i
  /-- All of them are recorded as applied, but for the last where the run has stopped. -/
  recorded : ∃ k, Applied lim r.file first (n + k) ∧
    (k = r.ran.length ∨ k + 1 = r.ran.length ∧ r.returned = false)
  /-- A version that fails is the last. -/
  stops : ∀ v ∈ r.ran, w.up v ≠ .returns → r.ran.getLast? = some v ∧ r.returned = false

/-- A run that does nothing. -/
theorem RunSound.nothing (h : Applied lim file first n) (w : World) (returned : Bool) :
    RunSound lim w first n ⟨file, [], returned⟩ where
  inOrder := rfl
  recorded := ⟨0, h, Or.inl rfl⟩
  stops := fun _ hv => (List.not_mem_nil hv).elim

/-- A run that stops at its first version. -/
theorem RunSound.stopped {file' : Option Bytes} {k : Nat} (h : Applied lim file' first (n + k))
    (hk : k ≤ 1) (w : World) : RunSound lim w first n ⟨file', [first + n], false⟩ where
  inOrder := by simp
  recorded := by
    refine ⟨k, h, ?_⟩
    rcases Nat.le_one_iff_eq_zero_or_eq_one.mp hk with rfl | rfl
    · exact Or.inr ⟨rfl, rfl⟩
    · exact Or.inl rfl
  stops := fun v hv _ => ⟨by rw [List.mem_singleton.mp hv]; rfl, rfl⟩

/-- A run that goes on after its first version. -/
theorem RunSound.cons {w : World} {r : Run} (h : RunSound lim w first (n + 1) r)
    (hup : w.up (first + n) = .returns) :
    RunSound lim w first n ⟨r.file, (first + n) :: r.ran, r.returned⟩ where
  inOrder := by
    rw [List.length_cons, List.range_succ_eq_map, List.map_cons, List.map_map]
    conv_lhs => rw [h.inOrder]
    simp only [Function.comp_def, Nat.cast_add, Nat.cast_one, Nat.cast_zero, add_zero,
      Nat.succ_eq_add_one]
    congr 1
    apply List.map_congr_left
    intro i _
    omega
  recorded := by
    obtain ⟨k, happlied, hk⟩ := h.recorded
    refine ⟨k + 1, by rwa [Nat.add_right_comm, Nat.add_assoc] at happlied, ?_⟩
    rw [List.length_cons]
    rcases hk with rfl | ⟨hk, hreturned⟩
    · exact Or.inl rfl
    · exact Or.inr ⟨by omega, hreturned⟩
  stops := by
    intro v hv hfails
    rcases List.mem_cons.mp hv with rfl | hv
    · exact absurd hup hfails
    · obtain ⟨hlast, hreturned⟩ := h.stops v hv hfails
      refine ⟨?_, hreturned⟩
      rw [List.getLast?_cons, hlast]
      rfl

/-- The loop over consecutive versions, of which it skips those that are applied. -/
theorem applyFrom_sound (w : World) (m : Nat) {a current : Int} (ha : a ≤ current + 1)
    (hcurrent : current + 1 = first + n) (h : Applied lim file first n) :
    RunSound lim w first n
        (applyFrom lim w ((List.range m).map fun i : Nat => a + i) current file) ∧
      ((applyFrom lim w ((List.range m).map fun i : Nat => a + i) current file).returned = true →
        ∃ k, Applied lim
            (applyFrom lim w ((List.range m).map fun i : Nat => a + i) current file).file first k ∧
          first + k = max (current + 1) (a + m)) := by
  induction m generalizing a current file n with
  | zero =>
    refine ⟨RunSound.nothing h w true, fun _ => ⟨n, h, ?_⟩⟩
    simp only [Nat.cast_zero, add_zero]
    omega
  | succ m ih =>
    have hversions : (List.range (m + 1)).map (fun i : Nat => a + i) =
        a :: (List.range m).map fun i : Nat => a + 1 + i := by
      rw [List.range_succ_eq_map, List.map_cons, List.map_map]
      simp only [Function.comp_def, Nat.cast_zero, add_zero, Nat.succ_eq_add_one, Nat.cast_add,
        Nat.cast_one]
      congr 1
      apply List.map_congr_left
      intro i _
      omega
    rw [hversions, applyFrom]
    by_cases hskip : a ≤ current
    · rw [if_pos hskip]
      obtain ⟨hsound, hdone⟩ := ih (a := a + 1) (by omega) hcurrent h
      refine ⟨hsound, fun hreturned => ?_⟩
      obtain ⟨k, hk, heq⟩ := hdone hreturned
      exact ⟨k, hk, by rw [heq]; push_cast; omega⟩
    · rw [if_neg hskip]
      -- the first version that is not applied
      obtain rfl : a = first + n := by omega
      cases hup : w.up (first + n) with
      | dies => exact ⟨.stopped (k := 0) h (by decide) w, fun hreturned => by cases hreturned⟩
      | raises text =>
        exact ⟨.stopped (k := 0) (applied_of_failure h w _ _ text) (by decide) w,
          fun hreturned => by cases hreturned⟩
      | returns =>
        have hsuccess := applied_of_success h w (w.write (first + n))
        generalize hwrite : writeEntry lim (w.write (first + n)) file
          (entryFor w (first + n) none) = written at hsuccess
        obtain ⟨file', returned⟩ := written
        cases returned with
        | false =>
          dsimp only
          rcases hsuccess with ⟨hsame, -⟩ | hnew
          · exact ⟨.stopped (k := 0) hsame (by decide) w, fun hreturned => by cases hreturned⟩
          · exact ⟨.stopped (k := 1) hnew (by decide) w, fun hreturned => by cases hreturned⟩
        | true =>
          dsimp only
          have hnew : Applied lim file' first (n + 1) := by
            rcases hsuccess with ⟨-, hstop⟩ | hnew
            · cases hstop
            · exact hnew
          obtain ⟨hsound, hdone⟩ := ih (a := first + n + 1) (Int.le_refl (first + n + 1))
            (by push_cast; omega) hnew
          refine ⟨hsound.cons hup, fun hreturned => ?_⟩
          obtain ⟨k, hk, heq⟩ := hdone hreturned
          exact ⟨k, hk, by rw [heq]; push_cast; omega⟩

/-! ## Sequences of runs -/

theorem latestRegistryVersion_range (m : Nat) :
    latestRegistryVersion ((List.range m).map fun i : Nat => 2 + (i : Int)) = 1 + m := by
  cases m with
  | zero => rfl
  | succ m =>
    rw [latestRegistryVersion, List.range_succ, List.map_append, List.map_singleton,
      List.getLast?_concat, Option.getD_some]
    push_cast
    omega

/-- The log is at this version. -/
def AtVersion (lim : Limits) (file : Option Bytes) (version : Int) : Prop :=
  ∃ entries, readLog lim file = .ok entries ∧ currentHostVersion entries = .int version

/-- One run, on a log in which the versions from `first` on are applied. -/
theorem applySystemMigrations_sound (hfirst : 1 ≤ first) (h : Applied lim file first n) (w : World)
    (versions : List Int) :
    RunSound lim w first n (applySystemMigrations lim w versions file) ∧
      ((applySystemMigrations lim w versions file).returned = true →
        AtVersion lim (applySystemMigrations lim w versions file).file
          (latestRegistryVersion versions)) := by
  have hrefused : RunSound lim w first n ⟨file, [], false⟩ ∧
      (false = true → AtVersion lim file (latestRegistryVersion versions)) :=
    ⟨.nothing h w false, fun hreturned => by cases hreturned⟩
  obtain ⟨entries, hread, hsucc⟩ := id h
  unfold applySystemMigrations
  simp only [hread]
  by_cases hvalid : validateRegistry versions = false
  · rw [if_pos hvalid]
    exact hrefused
  by_cases hroot : w.root = false
  · rw [if_neg hvalid, if_pos hroot]
    exact hrefused
  rw [if_neg hvalid, if_neg hroot]
  cases n with
  | zero =>
    -- without a success the version is 0, which is refused
    have hcurrent : currentHostVersion entries = .int 0 := by
      rw [currentHostVersion_eq, hsucc]
      rfl
    rw [hcurrent]
    exact hrefused
  | succ n =>
    rw [currentHostVersion_of_applied hsucc]
    simp only [versionNumber?]
    rw [if_neg (by omega : ¬ first + (n : Int) = 0)]
    split
    · exact hrefused
    · rename_i hknown
      have hrange : versions = (List.range versions.length).map fun i : Nat => 2 + (i : Int) := by
        simpa [validateRegistry] using hvalid
      generalize versions.length = m at hrange
      subst hrange
      rw [latestRegistryVersion_range] at hknown ⊢
      obtain ⟨hsound, hdone⟩ := applyFrom_sound w m (a := 2)
        (show (2 : Int) ≤ first + n + 1 by omega)
        (by push_cast; omega) h
      refine ⟨hsound, fun hreturned => ?_⟩
      obtain ⟨k, ⟨entries', hread', hsucc'⟩, hk⟩ := hdone hreturned
      obtain ⟨k, rfl⟩ : ∃ k', k = k' + 1 := ⟨k - 1, by omega⟩
      refine ⟨entries', hread', ?_⟩
      rw [currentHostVersion_of_applied hsucc']
      congr 1
      push_cast at hk
      omega

end

/-- One run of the runner, with any migrations and whatever it meets. -/
def migrationRun (lim : Limits) (file : Option Bytes) (a : World × List Int) (file' : Option Bytes) :
    Prop :=
  (applySystemMigrations lim a.1 a.2 file).file = file'

theorem migrationRun_file (lim : Limits) (w : World) (versions : List Int) (file : Option Bytes) :
    migrationRun lim file (w, versions) (applySystemMigrations lim w versions file).file := rfl

/-- After any sequence of runs, each of which may have failed or died anywhere, the versions applied
are contiguous; the next run applies the ones that follow, stops where one fails, and has applied all
of them if it returns. -/
theorem migrations_of_reaches {lim : Limits} {file₀ file : Option Bytes} {first : Int} {n₀ : Nat}
    (hfirst : 1 ≤ first) (h₀ : Applied lim file₀ first n₀)
    (hreach : Reach (migrationRun lim) (fun _ _ => True) file₀ file) :
    ∃ n, Applied lim file first n ∧ ∀ (w : World) (versions : List Int),
      RunSound lim w first n (applySystemMigrations lim w versions file) ∧
        ((applySystemMigrations lim w versions file).returned = true →
          AtVersion lim (applySystemMigrations lim w versions file).file
            (latestRegistryVersion versions)) := by
  obtain ⟨n, h⟩ : ∃ n, Applied lim file first n := by
    refine hreach.invariant (fun file => ∃ n, Applied lim file first n) ⟨n₀, h₀⟩ ?_
    rintro file ⟨w, versions⟩ file' ⟨n, h⟩ - rfl
    obtain ⟨k, happlied, -⟩ := (applySystemMigrations_sound hfirst h w versions).1.recorded
    exact ⟨n + k, happlied⟩
  exact ⟨n, h, applySystemMigrations_sound hfirst h⟩

/-- The log that provisioning writes. -/
def baselineLog : Option Bytes :=
  some (encode (String.ofList (dictText false firstEntry.asdict ++ ['\n'])))

theorem applied_baselineLog : Applied defaultLimits baselineLog 1 1 := by
  have hwritable : (firstEntry.asdict.all fun m => m.2.writable defaultLimits) = true := by decide
  have hdumps : dumps defaultLimits false firstEntry.asdict =
      .ok (dictText false firstEntry.asdict) := by
    rw [dumps, if_pos hwritable]
  have hmissing : ¬ (([] : Bytes) ≠ [] ∧ endsLine [] = false) := fun h => h.1 rfl
  -- the text itself does not matter, only that it is the first entry's
  have happend : appendEntry defaultLimits none firstEntry =
      .ok (encode (String.ofList (dictText false firstEntry.asdict ++ ['\n']))) := by
    rw [appendEntry, Option.getD_none, appended, hdumps]
    dsimp only
    rw [if_neg hmissing, Except.map, List.nil_append]
  have hnone : readLog defaultLimits none = .ok [] := rfl
  exact ⟨[firstEntry.readBack], readLog_appendEntry hnone happend, rfl⟩

/-- A host on which the migration to version 3 fails. -/
def failingWorld : World where
  root := true
  up version := if version = 3 then .raises (ofString "no space left") else .returns
  time _ := ofString "2026-01-02T00:00:00+00:00"
  write _ := .complete

/-- The log after a run there. -/
def failedLog : Option Bytes :=
  (applySystemMigrations defaultLimits failingWorld [2, 3] baselineLog).file

theorem migrations_of_reaches_failedLog :
    ∃ n, Applied defaultLimits failedLog 1 n ∧ ∀ (w : World) (versions : List Int),
      RunSound defaultLimits w 1 n (applySystemMigrations defaultLimits w versions failedLog) ∧
        ((applySystemMigrations defaultLimits w versions failedLog).returned = true →
          AtVersion defaultLimits (applySystemMigrations defaultLimits w versions failedLog).file
            (latestRegistryVersion versions)) := by
  have hrun : migrationRun defaultLimits baselineLog (failingWorld, [2, 3]) failedLog := by
    rw [failedLog]
    exact migrationRun_file defaultLimits failingWorld [2, 3] baselineLog
  exact migrations_of_reaches (by decide) applied_baselineLog (.step .refl trivial hrun)

end OpenHost.Update
