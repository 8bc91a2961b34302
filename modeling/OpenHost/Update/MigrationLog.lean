import OpenHost.Library.JsonLines

/-!
# The log of system migrations

`migration_log.py`: `read_log` passes over malformed lines, and `append_entry` ends the last line of
the file before it appends one of its own.
-/

namespace OpenHost.Update

open Json Lines
open Utf8 (Bytes encode decode valid)

/-! ## Entries -/

/-- `MigrationLogEntry`, whose fields hold whatever the log says. -/
structure MigrationLogEntry where
  version : Value
  timestamp : Value
  success : Value
  error : Value

/-- An entry as the runner makes it. -/
structure NewEntry where
  version : Int
  timestamp : PyStr
  success : Bool
  error : Option PyStr
  deriving DecidableEq

/-- `attr.asdict(entry)` -/
def NewEntry.asdict (e : NewEntry) : List (PyStr × Scalar) :=
  [(ofString "version", .int e.version), (ofString "timestamp", .str e.timestamp),
    (ofString "success", .bool e.success), (ofString "error", strOrNone e.error)]

/-- The entry with its fields as values. -/
def NewEntry.entry (e : NewEntry) : MigrationLogEntry where
  version := .int e.version
  timestamp := .str e.timestamp
  success := .bool e.success
  error :=
    match e.error with
    | none => .null
    | some s => .str s

/-! ## Reading -/

/-- What reading and appending can raise. -/
inductive LogError where
  | unicodeDecodeError
  | json (e : Json.Error)
  | typeError
  | keyError
  deriving DecidableEq, Repr

/-- `except (json.JSONDecodeError, KeyError)` -/
def LogError.skipped : LogError → Bool
  | .json .decode | .keyError => true
  | _ => false

/-- `raw[key]` on a dictionary. -/
def getItem (members : List (PyStr × Value)) (key : String) : Except LogError Value :=
  match get? members key with
  | some v => .ok v
  | none => .error .keyError

/-- `MigrationLogEntry(version=raw["version"], ..)` -/
def entryOf (members : List (PyStr × Value)) : Except LogError MigrationLogEntry := do
  let version ← getItem members "version"
  let success ← getItem members "success"
  return { version := version
           timestamp := (get? members "timestamp").getD (.str [])
           success := success
           error := (get? members "error").getD .null }

/-- The entry that a line holds. -/
def parseLine (lim : Limits) (line : List Char) : Except LogError MigrationLogEntry :=
  match loads lim line with
  | .error e => .error (.json e)
  | .ok (.dict members) => entryOf members
  -- a string is no index for a list, and the other values have no items
  | .ok _ => .error .typeError

/-- A line that is malformed is passed over. -/
def readLine (lim : Limits) (line : List Char) : Except LogError (Option MigrationLogEntry) :=
  match parseLine lim line with
  | .ok entry => .ok (some entry)
  | .error e => if e.skipped then .ok none else .error e

/-- The loop of `read_log`. -/
def readLines (lim : Limits) : List (List Char) → Except LogError (List MigrationLogEntry) :=
  collect (readLine lim)

/-- `read_log`; `none` stands for a file that is not there. -/
def readLog (lim : Limits) : Option Bytes → Except LogError (List MigrationLogEntry)
  | none => .ok []
  | some content =>
      match readText content with
      | none => .error .unicodeDecodeError
      | some text => readLines lim (splitlines text)

/-! ## Appending -/

/-- `endswith(b"\n")` -/
def endsLine (existing : Bytes) : Bool := existing.getLast? = some 0x0A

/-- What `append_entry` writes behind the existing content. -/
def appended (lim : Limits) (existing : Bytes) (e : NewEntry) : Except LogError (List Char) :=
  match dumps lim false e.asdict with
  | .error err => .error (.json err)
  | .ok line =>
      if existing ≠ [] ∧ endsLine existing = false then .ok ('\n' :: (line ++ ['\n']))
      else .ok (line ++ ['\n'])

/-- `append_entry` -/
def appendEntry (lim : Limits) (file : Option Bytes) (e : NewEntry) : Except LogError Bytes :=
  (appended lim (file.getD []) e).map fun line => file.getD [] ++ encode (String.ofList line)

/-! ## What stops the loop -/

section Loop

variable {lim : Limits}

/-- A record does not stop the loop. -/
def Passes (lim : Limits) (line : List Char) : Prop :=
  loads lim line = .error .decode ∨ ∃ members, loads lim line = .ok (.dict members)

/-- A dictionary gives an entry, or lacks a key. -/
theorem entryOf_cases (members : List (PyStr × Value)) :
    (∃ entry, entryOf members = .ok entry) ∨ entryOf members = .error .keyError := by
  unfold entryOf getItem
  cases get? members "version" with
  | none => exact Or.inr rfl
  | some version =>
    cases get? members "success" with
    | none => exact Or.inr rfl
    | some success => exact Or.inl ⟨_, rfl⟩

theorem passes_iff {line : List Char} : Passes lim line ↔ ∃ entry, readLine lim line = .ok entry := by
  unfold Passes readLine parseLine
  cases hloads : loads lim line with
  | error e =>
    cases e with
    | decode => exact ⟨fun _ => ⟨none, rfl⟩, fun _ => Or.inl rfl⟩
    | digits =>
      refine ⟨?_, ?_⟩
      · rintro (h | ⟨_, h⟩) <;> cases h
      · rintro ⟨_, h⟩
        cases h
    | recursion =>
      refine ⟨?_, ?_⟩
      · rintro (h | ⟨_, h⟩) <;> cases h
      · rintro ⟨_, h⟩
        cases h
  | ok v =>
    have hother : (∀ members, v ≠ .dict members) →
        ¬ (Except.ok v = (.error .decode : Except Json.Error Value) ∨
          ∃ members, (.ok v : Except Json.Error Value) = .ok (.dict members)) := by
      rintro hv (h | ⟨members, h⟩)
      · cases h
      · exact hv members (Except.ok.inj h)
    cases v with
    | dict members =>
      refine ⟨fun _ => ?_, fun _ => Or.inr ⟨members, rfl⟩⟩
      rcases entryOf_cases members with ⟨entry, h⟩ | h
      · exact ⟨some entry, by simp only [h]⟩
      · exact ⟨none, by simp only [h]; rfl⟩
    | null => exact iff_of_false (hother fun _ h => by cases h) (by rintro ⟨_, h⟩; cases h)
    | bool b => exact iff_of_false (hother fun _ h => by cases h) (by rintro ⟨_, h⟩; cases h)
    | int n => exact iff_of_false (hother fun _ h => by cases h) (by rintro ⟨_, h⟩; cases h)
    | float t => exact iff_of_false (hother fun _ h => by cases h) (by rintro ⟨_, h⟩; cases h)
    | str t => exact iff_of_false (hother fun _ h => by cases h) (by rintro ⟨_, h⟩; cases h)
    | list l => exact iff_of_false (hother fun _ h => by cases h) (by rintro ⟨_, h⟩; cases h)

/-- The file can be decoded, and no record stops the loop. -/
def Readable (lim : Limits) (file : Option Bytes) : Prop :=
  valid (file.getD []) = true ∧ ∀ l ∈ fileRecords file, Passes lim l

/-- What is read from a file that can be decoded. -/
theorem readLog_eq {file : Option Bytes} (h : valid (file.getD []) = true) :
    readLog lim file = readLines lim (fileRecords file) := by
  cases file with
  | none => rfl
  | some content =>
    have htext : readText content = some (universalNewlines false (text content)) :=
      readText_eq_some_iff.mpr ⟨h, rfl⟩
    rw [readLog, htext]
    show readLines lim (splitlines (universalNewlines false (text content))) = _
    rw [readLines, ← collect_records, records_universalNewlines]
    rfl

/-- `read_log` does not raise. -/
theorem readLog_ok_iff {file : Option Bytes} :
    (∃ entries, readLog lim file = .ok entries) ↔ Readable lim file := by
  by_cases hvalid : valid (file.getD []) = true
  · rw [readLog_eq hvalid, Readable, and_iff_right hvalid]
    simp only [passes_iff]
    exact collect_records_ok_iff _
  · have hraises : ∃ content, file = some content ∧ valid content ≠ true := by
      cases file with
      | none => exact absurd rfl hvalid
      | some content => exact ⟨content, rfl, hvalid⟩
    obtain ⟨content, rfl, hcontent⟩ := hraises
    refine iff_of_false ?_ fun h => hvalid h.1
    rintro ⟨entries, h⟩
    rw [readLog, readText, if_neg hcontent] at h
    cases h

end Loop

/-! ## Appending an entry -/

section Append

variable {lim : Limits}

/-- A new line is begun for the entry. -/
theorem fileRecords_append {file : Option Bytes} (hvalid : valid (file.getD []) = true)
    (ms : List (PyStr × Scalar)) {line : List Char}
    (hline : line = if file.getD [] ≠ [] ∧ endsLine (file.getD []) = false
      then '\n' :: (dictText false ms ++ ['\n']) else dictText false ms ++ ['\n']) :
    fileRecords (some (file.getD [] ++ encode (String.ofList line))) =
      fileRecords file ++ [dictText false ms] := by
  rw [fileRecords, Option.getD_some, text_append hvalid, fileRecords, hline]
  split_ifs with hend
  · rw [records_append_break _ _ isLineBreak_newline, JsonLines.records_dictText_newline]
  · by_cases hempty : file.getD [] = []
    · rw [hempty]
      exact JsonLines.records_dictText_newline
    · have hlast : (file.getD []).getLast? = some 0x0A := by
        simpa [endsLine, hempty] using hend
      obtain ⟨t, ht⟩ := text_of_endsWith_newline hvalid hlast
      rw [ht, List.append_assoc, List.singleton_append,
        records_append_break _ _ isLineBreak_newline, JsonLines.records_dictText_newline,
        records_append_break _ _ isLineBreak_newline, records_nil, List.append_nil]

/-- What is read back for an entry. -/
def NewEntry.readBack (e : NewEntry) : MigrationLogEntry where
  version := .int e.version
  timestamp := .str (join e.timestamp)
  success := .bool e.success
  error := joinOrNone e.error

theorem readMembers_asdict (e : NewEntry) :
    readMembers [] e.asdict =
      [(ofString "version", .int e.version), (ofString "timestamp", .str (join e.timestamp)),
        (ofString "success", .bool e.success), (ofString "error", joinOrNone e.error)] := by
  have hkey : ∀ s, join (ofString s) = ofString s := joined_ofString
  have hdistinct : [ofString "version", ofString "timestamp", ofString "success",
      ofString "error"].Nodup := by
    decide
  rw [readMembers_eq (by simpa only [NewEntry.asdict, List.map_cons, List.map_nil, hkey])]
  simp only [NewEntry.asdict, List.map_cons, List.map_nil, hkey, value_strOrNone]
  rfl

theorem readLine_dictText {e : NewEntry} {line : List Char}
    (h : dumps lim false e.asdict = .ok line) : readLine lim line = .ok (some e.readBack) := by
  have hloads : loads lim line = .ok (.dict (readMembers [] e.asdict)) := loads_dumps h
  have h₁ : ofString "version" ≠ ofString "timestamp" := by decide
  have h₂ : ofString "version" ≠ ofString "success" := by decide
  have h₃ : ofString "timestamp" ≠ ofString "success" := by decide
  have h₄ : ofString "version" ≠ ofString "error" := by decide
  have h₅ : ofString "timestamp" ≠ ofString "error" := by decide
  have h₆ : ofString "success" ≠ ofString "error" := by decide
  rw [readMembers_asdict] at hloads
  simp only [readLine, parseLine, hloads, entryOf, getItem, get?, List.find?_cons, decide_true,
    Option.map_some, h₁, h₂, h₃, h₄, h₅, h₆, decide_false]
  rfl

/-- What is read after an entry was appended to a file that could be read. -/
theorem readLog_appendEntry {file : Option Bytes} {entries : List MigrationLogEntry} {e : NewEntry}
    {content : Bytes} (hread : readLog lim file = .ok entries)
    (happend : appendEntry lim file e = .ok content) :
    readLog lim (some content) = .ok (entries ++ [e.readBack]) := by
  obtain ⟨hvalid, -⟩ := readLog_ok_iff.mp ⟨entries, hread⟩
  unfold appendEntry appended at happend
  cases hdumps : dumps lim false e.asdict with
  | error err =>
    rw [hdumps] at happend
    cases happend
  | ok line =>
    have hdict : line = dictText false e.asdict := (dumps_ok hdumps).1
    rw [hdumps] at happend
    have hcontent : content = file.getD [] ++ encode (String.ofList
        (if file.getD [] ≠ [] ∧ endsLine (file.getD []) = false
          then '\n' :: (line ++ ['\n']) else line ++ ['\n'])) := by
      split_ifs at happend with hend <;> rw [← Except.ok.inj happend]
      · rw [if_pos hend]
      · rw [if_neg hend]
    have hvalid' : valid ((some content : Option Bytes).getD []) = true := by
      rw [Option.getD_some, hcontent]
      exact valid_append hvalid _
    have hrecords : fileRecords (some content) = fileRecords file ++ [line] := by
      rw [hcontent, hdict]
      exact fileRecords_append hvalid e.asdict rfl
    have hstrip : stripLine line = line := by
      rw [hdict]
      exact JsonLines.stripLine_dictText
    have hne : line ≠ [] := by
      rw [hdict]
      simp [dictText]
    rw [readLog_eq hvalid', hrecords]
    refine collect_append_ok_iff.mpr ⟨entries, [e.readBack], ?_, ?_, rfl⟩
    · rw [← hread, readLog_eq hvalid]
      rfl
    · rw [collect_cons_of_ne hstrip hne, readLine_dictText hdumps]
      rfl

/-! ## An append that is cut short -/

/-- A new line is begun for what was written of the entry. -/
theorem fileRecords_cut {file : Option Bytes} (hvalid : valid (file.getD []) = true)
    {e : NewEntry} {line : List Char} (happ : appended lim (file.getD []) e = .ok line) (k : Nat) :
    ∃ q, q <+: dictText false e.asdict ++ ['\n'] ∧
      fileRecords (some (file.getD [] ++ encode (String.ofList (line.take k)))) =
        fileRecords file ++ records q := by
  unfold appended at happ
  cases hdumps : dumps lim false e.asdict with
  | error err =>
    rw [hdumps] at happ
    cases happ
  | ok dict =>
    have hdict : dict = dictText false e.asdict := (dumps_ok hdumps).1
    rw [hdumps] at happ
    simp only [fileRecords, Option.getD_some, text_append hvalid]
    dsimp only at happ
    split_ifs at happ with hend
    · obtain rfl := Except.ok.inj happ
      cases k with
      | zero => exact ⟨[], List.nil_prefix, by simp⟩
      | succ k =>
        refine ⟨(dict ++ ['\n']).take k, ?_, ?_⟩
        · rw [hdict]
          exact List.take_prefix k _
        · rw [List.take_succ_cons, records_append_break _ _ isLineBreak_newline]
    · obtain rfl := Except.ok.inj happ
      refine ⟨(dict ++ ['\n']).take k, ?_, ?_⟩
      · rw [hdict]
        exact List.take_prefix k _
      · by_cases hempty : file.getD [] = []
        · rw [hempty]
          rfl
        · have hlast : (file.getD []).getLast? = some 0x0A := by
            simpa [endsLine, hempty] using hend
          obtain ⟨t, ht⟩ := text_of_endsWith_newline hvalid hlast
          rw [ht, List.append_assoc, List.singleton_append,
            records_append_break _ _ isLineBreak_newline,
            records_append_break _ _ isLineBreak_newline, records_nil, List.append_nil]

/-- A dictionary that was cut short is passed over. -/
theorem collect_records_cut {e : NewEntry} {dict : List Char}
    (hdumps : dumps lim false e.asdict = .ok dict) {q : List Char} (hq : q <+: dict) :
    collect (readLine lim) (records q) = .ok [] ∨
      collect (readLine lim) (records q) = .ok [e.readBack] := by
  have hdict : dict = dictText false e.asdict := (dumps_ok hdumps).1
  have hline : ∀ c ∈ q, isLineBreak c = false := by
    intro c hc
    have hmem : c ∈ dict := hq.subset hc
    rw [hdict] at hmem
    exact JsonLines.not_isLineBreak_of_mem_dictText hmem
  have hleft : Text.lstripChars q = q := by
    rw [Text.lstripChars_eq_self_iff]
    intro c hc
    obtain ⟨rest, hrest⟩ := hq
    cases q with
    | nil => cases hc
    | cons d q =>
      rw [hdict, dictText, List.cons_append, List.cons_append] at hrest
      rw [← Option.some.inj hc, (List.cons.inj hrest).1]
      decide
  have hstrip : stripLine q <+: dict := by
    rw [stripLine, hleft]
    exact (Text.rstripChars_initial q).trans hq
  rw [records_of_line hline]
  split_ifs with hempty
  · exact Or.inl rfl
  · rw [collect_cons_of_ne (stripLine_stripLine q) hempty]
    by_cases hwhole : stripLine q = dict
    · rw [hwhole, readLine_dictText hdumps]
      exact Or.inr rfl
    · refine Or.inl ?_
      rw [readLine, parseLine, loads_dumps_cut hdumps hstrip hwhole]
      rfl

/-- An append that is cut short adds the entry or nothing. -/
theorem readLog_cut {file : Option Bytes} {entries : List MigrationLogEntry} {e : NewEntry}
    {line : List Char} (hread : readLog lim file = .ok entries)
    (happ : appended lim (file.getD []) e = .ok line) (k : Nat) :
    readLog lim (some (file.getD [] ++ encode (String.ofList (line.take k)))) = .ok entries ∨
      readLog lim (some (file.getD [] ++ encode (String.ofList (line.take k)))) =
        .ok (entries ++ [e.readBack]) := by
  obtain ⟨hvalid, -⟩ := readLog_ok_iff.mp ⟨entries, hread⟩
  have hvalid' : valid ((some (file.getD [] ++ encode (String.ofList (line.take k))) :
      Option Bytes).getD []) = true := valid_append hvalid _
  obtain ⟨q, hq, hrecords⟩ := fileRecords_cut hvalid happ k
  have hfirst : collect (readLine lim) (fileRecords file) = .ok entries := by
    rw [← hread, readLog_eq hvalid]
    rfl
  have hrest : collect (readLine lim) (records q) = .ok [] ∨
      collect (readLine lim) (records q) = .ok [e.readBack] := by
    obtain ⟨dict, hdumps⟩ : ∃ dict, dumps lim false e.asdict = .ok dict := by
      unfold appended at happ
      cases hdumps : dumps lim false e.asdict with
      | error err =>
        rw [hdumps] at happ
        cases happ
      | ok dict => exact ⟨dict, rfl⟩
    have hdict : dict = dictText false e.asdict := (dumps_ok hdumps).1
    rcases List.prefix_concat_iff.mp hq with rfl | hq
    · refine Or.inr ?_
      rw [JsonLines.records_dictText_newline, collect_cons_of_ne JsonLines.stripLine_dictText
        (by simp [dictText]), ← hdict, readLine_dictText hdumps]
      rfl
    · rw [← hdict] at hq
      exact collect_records_cut hdumps hq
  rw [readLog_eq hvalid', hrecords]
  rcases hrest with hrest | hrest
  · refine Or.inl (collect_append_ok_iff.mpr ⟨entries, [], hfirst, hrest, ?_⟩)
    rw [List.append_nil]
  · exact Or.inr (collect_append_ok_iff.mpr ⟨entries, _, hfirst, hrest, rfl⟩)

/-! ## When an entry is read as it was appended -/

/-- The entry can be written. -/
def NewEntry.Writable (lim : Limits) (e : NewEntry) : Prop :=
  (Nat.toDigits 10 e.version.natAbs).length ≤ lim.digits

/-- No text of the entry holds two surrogates that make a pair. -/
structure NewEntry.Plain (e : NewEntry) : Prop where
  timestamp : Joined e.timestamp
  error : ∀ s, e.error = some s → Joined s

/-- `read_log` does not raise, and once the entry is appended it returns the same entries followed by
that one. -/
def AppendsEntry (lim : Limits) (file : Option Bytes) (e : NewEntry) : Prop :=
  ∃ entries, readLog lim file = .ok entries ∧
    ∀ content, appendEntry lim file e = .ok content →
      readLog lim (some content) = .ok (entries ++ [e.entry])

theorem readBack_eq_entry_iff (e : NewEntry) : e.readBack = e.entry ↔ e.Plain := by
  constructor
  · intro h
    refine ⟨Value.str.inj (congrArg MigrationLogEntry.timestamp h), fun s hs => ?_⟩
    have herror := congrArg MigrationLogEntry.error h
    simp only [NewEntry.readBack, NewEntry.entry, hs, joinOrNone] at herror
    exact Value.str.inj herror
  · intro h
    have htimestamp : join e.timestamp = e.timestamp := h.timestamp
    cases herror : e.error with
    | none => simp only [NewEntry.readBack, NewEntry.entry, herror, joinOrNone, htimestamp]
    | some s =>
      have hs : join s = s := h.error s herror
      simp only [NewEntry.readBack, NewEntry.entry, herror, joinOrNone, htimestamp, hs]

theorem dumps_asdict_ok_iff (e : NewEntry) :
    (∃ line, dumps lim false e.asdict = .ok line) ↔ e.Writable lim := by
  have hall : (e.asdict.all fun m => m.2.writable lim) = true ↔ e.Writable lim := by
    obtain ⟨version, timestamp, success, error⟩ := e
    cases error <;> simp [NewEntry.asdict, strOrNone, Scalar.writable, NewEntry.Writable]
  rw [dumps]
  by_cases h : e.Writable lim
  · rw [if_pos (hall.mpr h)]
    exact iff_of_true ⟨_, rfl⟩ h
  · rw [if_neg (mt hall.mp h)]
    exact iff_of_false (by rintro ⟨_, hok⟩; cases hok) h

/-- An entry is appended when it can be written. -/
theorem appendEntry_ok_iff (file : Option Bytes) (e : NewEntry) :
    (∃ content, appendEntry lim file e = .ok content) ↔ e.Writable lim := by
  rw [← dumps_asdict_ok_iff]
  unfold appendEntry appended
  cases dumps lim false e.asdict with
  | error err => exact iff_of_false (by rintro ⟨_, h⟩; cases h) (by rintro ⟨_, h⟩; cases h)
  | ok line =>
    refine iff_of_true ?_ ⟨line, rfl⟩
    dsimp only
    split_ifs <;> exact ⟨_, rfl⟩

/-- The log can be read before and after exactly when no record stops the loop; the entry is then the
last one, unless surrogates in it are read as one character. -/
theorem appendsEntry_iff (lim : Limits) (file : Option Bytes) (e : NewEntry) :
    AppendsEntry lim file e ↔ Readable lim file ∧ (e.Writable lim → e.Plain) := by
  constructor
  · rintro ⟨entries, hread, hall⟩
    refine ⟨readLog_ok_iff.mp ⟨entries, hread⟩, fun hwritable => ?_⟩
    obtain ⟨content, hcontent⟩ := (appendEntry_ok_iff file e).mpr hwritable
    have hafter := hall content hcontent
    rw [readLog_appendEntry hread hcontent] at hafter
    have hlast := List.append_cancel_left (Except.ok.inj hafter)
    exact (readBack_eq_entry_iff e).mp (List.cons.inj hlast).1
  · rintro ⟨hreadable, hplain⟩
    obtain ⟨entries, hread⟩ := readLog_ok_iff.mpr hreadable
    refine ⟨entries, hread, fun content hcontent => ?_⟩
    have hwritable := (appendEntry_ok_iff file e).mp ⟨content, hcontent⟩
    rw [readLog_appendEntry hread hcontent,
      (readBack_eq_entry_iff e).mpr (hplain hwritable)]

end Append

/-! ## A line that is no object -/

/-- The first version, applied. -/
def firstEntry : NewEntry := ⟨1, ofString "2026-01-01T00:00:00+00:00", true, none⟩

/-- A line with an empty list stops the reader. -/
theorem list_line_raises :
    readLog defaultLimits (some (encode "[]\n")) = .error .typeError ∧
      ¬ AppendsEntry defaultLimits (some (encode "[]\n")) firstEntry := by
  have hvalid : valid ((some (encode "[]\n") : Option Bytes).getD []) = true := by
    exact Utf8.valid_encode _
  have hrecords : fileRecords (some (encode "[]\n")) = [['[', ']']] := by
    rw [fileRecords, Option.getD_some, text, Utf8.decode_encode]
    decide
  have hread : readLog defaultLimits (some (encode "[]\n")) = .error .typeError := by
    rw [readLog_eq hvalid, hrecords]
    rfl
  refine ⟨hread, ?_⟩
  rintro ⟨entries, hok, -⟩
  rw [hread] at hok
  cases hok

end OpenHost.Update
