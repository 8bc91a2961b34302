import OpenHost.Library.JsonLines

/-!
# The progress log of an update

`updater/progress.py`.  The log is appended to while an update runs and read by the page that waits
for it; the page stops waiting at a terminal entry.  `record` appends its line as it is: unlike the
log of migrations, this one does not end a line that a crash has torn.
-/

namespace OpenHost.Update

open Json Lines
open Utf8 (Bytes encode decode valid)

/-! ## Entries -/

/-- `Phase` -/
inductive Phase where
  | done
  | failed
  | restarting
  deriving DecidableEq, Repr

/-- The value of a phase. -/
def Phase.value : Phase → PyStr
  | done => ofString "done"
  | failed => ofString "failed"
  | restarting => ofString "restarting"

/-- `ProgressEntry` -/
structure ProgressEntry where
  ts : PyStr
  phase : PyStr
  message : PyStr
  ref : Option PyStr := none
  deriving DecidableEq

/-- `attr.asdict(entry)` -/
def ProgressEntry.asdict (e : ProgressEntry) : List (PyStr × Scalar) :=
  [(ofString "ts", .str e.ts), (ofString "phase", .str e.phase),
    (ofString "message", .str e.message), (ofString "ref", strOrNone e.ref)]

/-- An entry as a dictionary of values. -/
def ProgressEntry.members (e : ProgressEntry) : List (PyStr × Value) :=
  [(ofString "ts", .str e.ts), (ofString "phase", .str e.phase),
    (ofString "message", .str e.message),
    (ofString "ref",
      match e.ref with
      | none => .null
      | some s => .str s)]

/-! ## Reading -/

/-- What `read_entries` can raise. -/
inductive ProgressError where
  | unicodeDecodeError
  | json (e : Json.Error)
  deriving DecidableEq, Repr

/-- The dictionary that a line holds; malformed lines and other values are passed over. -/
def readEntry (lim : Limits) (line : List Char) :
    Except ProgressError (Option (List (PyStr × Value))) :=
  match loads lim line with
  | .error .decode => .ok none
  | .error e => .error (.json e)
  | .ok (.dict members) => .ok (some members)
  | .ok _ => .ok none

/-- `read_entries`; `none` stands for a file that cannot be opened. -/
def readEntries (lim : Limits) :
    Option Bytes → Except ProgressError (List (List (PyStr × Value)))
  | none => .ok []
  | some content =>
      match readText content with
      | none => .error .unicodeDecodeError
      | some text => collect (readEntry lim) (splitlines text)

/-- `entry.get("phase") == phase` -/
def hasPhase (phase : Phase) (entry : List (PyStr × Value)) : Bool :=
  match get? entry "phase" with
  | some (.str s) => s = phase.value
  | _ => false

/-- `is_terminal` -/
def isTerminal (entries : List (List (PyStr × Value))) : Bool :=
  match entries.getLast? with
  | none => false
  | some entry => hasPhase .done entry || hasPhase .failed entry

/-! ## Appending -/

/-- What comes of the attempt to append a line. -/
inductive Append where
  | complete
  /-- An `OSError` before the file was there. -/
  | refused
  /-- An `OSError` after so many characters. -/
  | cut (written : Nat)
  deriving DecidableEq, Repr

/-- The line that `record` appends. -/
def ProgressEntry.line (e : ProgressEntry) : List Char := dictText true e.asdict ++ ['\n']

/-- `record`: whether it returns `True`, and what is in the file afterwards. -/
def record (append : Append) (file : Option Bytes) (e : ProgressEntry) : Bool × Option Bytes :=
  match append with
  | .complete => (true, some (file.getD [] ++ encode (String.ofList e.line)))
  | .refused => (false, file)
  | .cut written => (false, some (file.getD [] ++ encode (String.ofList (e.line.take written))))

/-- The entry for an instance that has come back. -/
def backOnline (ts : PyStr) : ProgressEntry where
  ts := ts
  phase := Phase.value .done
  message := ofString "Instance is back online."

/-- The entry for an update that ended without one. -/
def interrupted (ts : PyStr) : ProgressEntry where
  ts := ts
  phase := Phase.value .failed
  message := ofString
    "Update was interrupted before it finished. The instance restarted; try again."

/-- What `mark_boot_complete` does about the entries that it has read. -/
def finalize (ts : PyStr) (append : Append) (running : Bool) (file : Option Bytes)
    (entries : List (List (PyStr × Value))) : Bool × Option Bytes :=
  match entries.getLast? with
  | none => (true, file)
  | some last =>
      if isTerminal entries then (true, file)
      else if hasPhase .restarting last then record append file (backOnline ts)
      -- an update that is still running is left its log
      else if running then (true, file)
      else record append file (interrupted ts)

/-- `mark_boot_complete`, at the time `ts`; `running` is what `apply_is_running` says. -/
def markBootComplete (lim : Limits) (ts : PyStr) (append : Append) (running : Bool)
    (file : Option Bytes) : Except ProgressError (Bool × Option Bytes) :=
  (readEntries lim file).map (finalize ts append running file)

/-! ## What is read before and after -/

section

variable {lim : Limits}

/-- A record that does not stop the loop: `json.loads` reads it, or finds it malformed. -/
def Tolerated (lim : Limits) (line : List Char) : Prop :=
  loads lim line = .error .decode ∨ ∃ v, loads lim line = .ok v

theorem tolerated_iff {line : List Char} : Tolerated lim line ↔ ∃ x, readEntry lim line = .ok x := by
  unfold Tolerated readEntry
  cases loads lim line with
  | error e =>
    cases e with
    | decode => exact iff_of_true (Or.inl rfl) ⟨none, rfl⟩
    | digits =>
      refine iff_of_false ?_ (by rintro ⟨_, h⟩; cases h)
      rintro (h | ⟨_, h⟩) <;> cases h
    | recursion =>
      refine iff_of_false ?_ (by rintro ⟨_, h⟩; cases h)
      rintro (h | ⟨_, h⟩) <;> cases h
  | ok v => cases v <;> exact iff_of_true (Or.inr ⟨_, rfl⟩) ⟨_, rfl⟩

/-- The log can be decoded, and no record stops the loop. -/
def LogReadable (lim : Limits) (file : Option Bytes) : Prop :=
  valid (file.getD []) = true ∧ ∀ l ∈ fileRecords file, Tolerated lim l

theorem readEntries_eq {file : Option Bytes} (h : valid (file.getD []) = true) :
    readEntries lim file = collect (readEntry lim) (fileRecords file) := by
  cases file with
  | none => rfl
  | some content =>
    have htext : readText content = some (universalNewlines false (text content)) :=
      readText_eq_some_iff.mpr ⟨h, rfl⟩
    rw [readEntries, htext]
    show collect (readEntry lim) (splitlines (universalNewlines false (text content))) = _
    rw [← collect_records, records_universalNewlines]
    rfl

/-- `read_entries` does not raise. -/
theorem readEntries_ok_iff {file : Option Bytes} :
    (∃ entries, readEntries lim file = .ok entries) ↔ LogReadable lim file := by
  by_cases hvalid : valid (file.getD []) = true
  · rw [readEntries_eq hvalid, LogReadable, and_iff_right hvalid]
    simp only [tolerated_iff]
    exact collect_records_ok_iff _
  · have hraises : ∃ content, file = some content ∧ valid content ≠ true := by
      cases file with
      | none => exact absurd rfl hvalid
      | some content => exact ⟨content, rfl, hvalid⟩
    obtain ⟨content, rfl, hcontent⟩ := hraises
    refine iff_of_false ?_ fun h => hvalid h.1
    rintro ⟨entries, h⟩
    rw [readEntries, readText, if_neg hcontent] at h
    cases h

/-! ## One more line -/

/-- No text of the entry holds two surrogates that make a pair. -/
structure ProgressEntry.Plain (e : ProgressEntry) : Prop where
  ts : Joined e.ts
  phase : Joined e.phase
  message : Joined e.message
  ref : ∀ s, e.ref = some s → Joined s

/-- What is read back for an entry. -/
def ProgressEntry.readBack (e : ProgressEntry) : List (PyStr × Value) :=
  [(ofString "ts", .str (join e.ts)), (ofString "phase", .str (join e.phase)),
    (ofString "message", .str (join e.message)), (ofString "ref", joinOrNone e.ref)]

theorem dumps_asdict (e : ProgressEntry) :
    dumps lim true e.asdict = .ok (dictText true e.asdict) := by
  obtain ⟨ts, phase, message, ref⟩ := e
  cases ref <;> rfl

theorem readMembers_progress (e : ProgressEntry) : readMembers [] e.asdict = e.readBack := by
  have hkey : ∀ s, join (ofString s) = ofString s := joined_ofString
  have hdistinct : [ofString "ts", ofString "phase", ofString "message", ofString "ref"].Nodup := by
    decide
  rw [readMembers_eq (by simpa only [ProgressEntry.asdict, List.map_cons, List.map_nil, hkey])]
  simp only [ProgressEntry.asdict, List.map_cons, List.map_nil, hkey, value_strOrNone]
  rfl

theorem readEntry_dictText (e : ProgressEntry) :
    readEntry lim (dictText true e.asdict) = .ok (some e.readBack) := by
  have hloads : loads lim (dictText true e.asdict) = .ok (.dict (readMembers [] e.asdict)) :=
    loads_dumps (dumps_asdict e)
  rw [readMembers_progress] at hloads
  simp only [readEntry, hloads]

theorem readBack_eq_members_iff (e : ProgressEntry) : e.readBack = e.members ↔ e.Plain := by
  constructor
  · intro h
    simp only [ProgressEntry.readBack, ProgressEntry.members, List.cons.injEq, Prod.mk.injEq,
      true_and, Value.str.injEq, and_true] at h
    obtain ⟨hts, hphase, hmessage, href⟩ := h
    refine ⟨hts, hphase, hmessage, fun s hs => ?_⟩
    simp only [hs, joinOrNone] at href
    exact Value.str.inj href
  · intro h
    have hts : join e.ts = e.ts := h.ts
    have hphase : join e.phase = e.phase := h.phase
    have hmessage : join e.message = e.message := h.message
    cases href : e.ref with
    | none => simp only [ProgressEntry.readBack, ProgressEntry.members, href, joinOrNone, hts,
        hphase, hmessage]
    | some s =>
      have hs : join s = s := h.ref s href
      simp only [ProgressEntry.readBack, ProgressEntry.members, href, joinOrNone, hts, hphase,
        hmessage, hs]

/-- The file after `record` has returned `True`. -/
def recorded (file : Option Bytes) (e : ProgressEntry) : Option Bytes :=
  some (file.getD [] ++ encode (String.ofList e.line))

/-- What stands in the last line, where nothing has ended it. -/
def tornLine (file : Option Bytes) : List Char := torn (text (file.getD []))

/-- The records before and after differ in the last line only. -/
theorem fileRecords_recorded {file : Option Bytes} (hvalid : valid (file.getD []) = true)
    (e : ProgressEntry) :
    ∃ whole, fileRecords file = records whole ++ records (tornLine file) ∧
      fileRecords (recorded file e) =
        records whole ++ [Text.lstripChars (tornLine file) ++ dictText true e.asdict] := by
  obtain ⟨whole, hwhole⟩ := records_append_torn (text (file.getD []))
  refine ⟨whole, ?_, ?_⟩
  · have := hwhole []
    rwa [List.append_nil, List.append_nil] at this
  · have := hwhole e.line
    rw [fileRecords, recorded, Option.getD_some, text_append hvalid, this,
      ProgressEntry.line, JsonLines.records_torn_dictText]
    rfl

/-- The last line has been ended, or is blank. -/
def Ended (file : Option Bytes) : Prop := ∀ c ∈ tornLine file, Text.isBlank c = true

theorem ended_iff {file : Option Bytes} : Ended file ↔ Text.lstripChars (tornLine file) = [] := by
  rw [Text.lstripChars, List.dropWhile_eq_nil_iff]
  rfl

/-- Where the last line has been ended, the entry is read behind those that were there. -/
theorem readEntries_recorded {file : Option Bytes} {entries : List (List (PyStr × Value))}
    (hread : readEntries lim file = .ok entries) (hended : Ended file) (e : ProgressEntry) :
    readEntries lim (recorded file e) = .ok (entries ++ [e.readBack]) := by
  obtain ⟨hvalid, -⟩ := readEntries_ok_iff.mp ⟨entries, hread⟩
  have hvalid' : valid ((recorded file e).getD []) = true := valid_append hvalid _
  obtain ⟨whole, hbefore, hafter⟩ := fileRecords_recorded hvalid e
  have hblank : Text.lstripChars (tornLine file) = [] := ended_iff.mp hended
  have hnone : records (tornLine file) = [] := by
    rw [records_of_line (l := tornLine file) fun c hc => not_isLineBreak_of_mem_torn hc, if_pos]
    rw [stripLine, hblank]
    rfl
  rw [readEntries_eq hvalid, hbefore, hnone, List.append_nil] at hread
  rw [readEntries_eq hvalid', hafter, hblank, List.nil_append]
  have hne : dictText true e.asdict ≠ [] := by simp [dictText]
  refine collect_append_ok_iff.mpr ⟨entries, [e.readBack], hread, ?_, rfl⟩
  rw [collect_cons_of_ne JsonLines.stripLine_dictText hne, readEntry_dictText]
  rfl

/-- Behind a torn line nothing is read, and what could be read there before is lost. -/
theorem readEntries_recorded_torn {file : Option Bytes} {entries : List (List (PyStr × Value))}
    (hread : readEntries lim file = .ok entries) (htorn : ¬ Ended file) (e : ProgressEntry)
    (x : List (PyStr × Value)) : readEntries lim (recorded file e) ≠ .ok (entries ++ [x]) := by
  obtain ⟨hvalid, -⟩ := readEntries_ok_iff.mp ⟨entries, hread⟩
  have hvalid' : valid ((recorded file e).getD []) = true := valid_append hvalid _
  obtain ⟨whole, hbefore, hafter⟩ := fileRecords_recorded hvalid e
  intro hread'
  rw [readEntries_eq hvalid, hbefore] at hread
  rw [readEntries_eq hvalid', hafter] at hread'
  obtain ⟨first, second, hfirst, -, rfl⟩ := collect_append_ok_iff.mp hread
  obtain ⟨first', second', hfirst', hsecond', heq⟩ := collect_append_ok_iff.mp hread'
  obtain rfl : first = first' := Except.ok.inj (hfirst.symm.trans hfirst')
  -- the line that was torn has become one that is malformed
  obtain ⟨c, before, hline⟩ : ∃ c before, Text.lstripChars (tornLine file) = c :: before :=
    List.exists_cons_of_ne_nil (mt ended_iff.mpr htorn)
  have hblank : Text.isBlank c = false := Text.isBlank_head_lstripChars hline
  have hspace : isSpace c = false := by
    by_contra h
    rw [JsonLines.isBlank_of_isSpace (by simpa using h)] at hblank
    cases hblank
  have hloads : ∀ v, loads lim (c :: before ++ dictText true e.asdict) ≠ .ok v :=
    loads_behind (dumps_asdict e) rfl (by decide) hspace
  have hstrip : stripLine (c :: before ++ dictText true e.asdict) =
      c :: before ++ dictText true e.asdict := by
    rw [JsonLines.stripLine_append_dictText, Text.lstripChars_eq_self_iff.mpr]
    intro d hd
    rw [List.head?_cons] at hd
    rwa [← Option.some.inj hd]
  rw [hline, collect_cons_of_ne hstrip (by simp)] at hsecond'
  have hsecond : second' = [] := by
    cases hloads' : loads lim (c :: before ++ dictText true e.asdict) with
    | ok v => exact absurd hloads' (hloads v)
    | error err =>
      rw [readEntry, hloads'] at hsecond'
      cases err with
      | decode => exact (Except.ok.inj hsecond').symm
      | digits => cases hsecond'
      | recursion => cases hsecond'
  have hlength := congrArg List.length heq
  simp only [hsecond, List.length_append, List.length_singleton, List.length_nil] at hlength
  omega

/-! ## When an entry is read as it was recorded -/

/-- After `record` has returned `True` the entries that were there are read, and then this one. -/
def RecordsEntry (lim : Limits) (file : Option Bytes) (e : ProgressEntry) : Prop :=
  ∀ append file', record append file e = (true, file') →
    ∃ entries, readEntries lim file = .ok entries ∧
      readEntries lim file' = .ok (entries ++ [e.members])

/-- After `mark_boot_complete` has returned `True`, with no update running, the log has no entry or
ends in a terminal one. -/
def BootCompletes (lim : Limits) (file : Option Bytes) : Prop :=
  ∀ ts append file', markBootComplete lim ts append false file = .ok (true, file') →
    ∃ entries, readEntries lim file' = .ok entries ∧ (entries = [] ∨ isTerminal entries = true)

theorem record_eq_true_iff {append : Append} {file file' : Option Bytes} {e : ProgressEntry} :
    record append file e = (true, file') ↔ append = .complete ∧ file' = recorded file e := by
  cases append <;> simp [record, recorded, eq_comm]

theorem recordsEntry_iff (lim : Limits) (file : Option Bytes) (e : ProgressEntry) :
    RecordsEntry lim file e ↔ LogReadable lim file ∧ Ended file ∧ e.Plain := by
  constructor
  · intro h
    obtain ⟨entries, hread, hread'⟩ := h .complete _ (record_eq_true_iff.mpr ⟨rfl, rfl⟩)
    have hended : Ended file := by
      by_contra htorn
      exact readEntries_recorded_torn hread htorn e e.members hread'
    rw [readEntries_recorded hread hended] at hread'
    have hlast := List.append_cancel_left (Except.ok.inj hread')
    exact ⟨readEntries_ok_iff.mp ⟨entries, hread⟩, hended,
      (readBack_eq_members_iff e).mp (List.cons.inj hlast).1⟩
  · rintro ⟨hreadable, hended, hplain⟩ append file' hrecord
    obtain ⟨-, rfl⟩ := record_eq_true_iff.mp hrecord
    obtain ⟨entries, hread⟩ := readEntries_ok_iff.mpr hreadable
    refine ⟨entries, hread, ?_⟩
    rw [readEntries_recorded hread hended, (readBack_eq_members_iff e).mpr hplain]

/-- The entries with which `mark_boot_complete` ends a log are terminal. -/
theorem isTerminal_readBack (entries : List (List (PyStr × Value))) {e : ProgressEntry}
    {phase : Phase} (hphase : e.phase = phase.value) (hterminal : phase = .done ∨ phase = .failed) :
    isTerminal (entries ++ [e.readBack]) = true := by
  have hget : get? e.readBack "phase" = some (.str phase.value) := by
    have hjoin : join phase.value = phase.value := by
      cases phase <;> exact joined_ofString _
    have hne : ofString "ts" ≠ ofString "phase" := by decide
    simp only [get?, ProgressEntry.readBack, List.find?_cons, hne, decide_false, decide_true,
      Option.map_some, hphase, hjoin]
  rw [isTerminal, List.getLast?_concat]
  simp only [hasPhase, hget]
  rcases hterminal with rfl | rfl <;> decide

/-- A log whose last line has been ended is brought to its end when the instance boots. -/
theorem bootCompletes_of_ended {file : Option Bytes} (hreadable : LogReadable lim file)
    (hended : Ended file) : BootCompletes lim file := by
  intro ts append file' h
  obtain ⟨entries, hread⟩ := readEntries_ok_iff.mpr hreadable
  have hrecorded : ∀ {e : ProgressEntry} {phase : Phase}, e.phase = phase.value →
      phase = .done ∨ phase = .failed → record append file e = (true, file') →
      ∃ entries, readEntries lim file' = .ok entries ∧ (entries = [] ∨ isTerminal entries = true) := by
    intro e phase hphase hterminal hrecord
    obtain ⟨-, rfl⟩ := record_eq_true_iff.mp hrecord
    exact ⟨_, readEntries_recorded hread hended e,
      Or.inr (isTerminal_readBack entries hphase hterminal)⟩
  rw [markBootComplete, hread] at h
  have hfinal : finalize ts append false file entries = (true, file') := Except.ok.inj h
  unfold finalize at hfinal
  cases hlast : entries.getLast? with
  | none =>
    rw [hlast] at hfinal
    obtain ⟨-, rfl⟩ := Prod.mk.inj hfinal
    exact ⟨entries, hread, Or.inl (List.getLast?_eq_none_iff.mp hlast)⟩
  | some last =>
    rw [hlast] at hfinal
    dsimp only at hfinal
    by_cases hterminal : isTerminal entries = true
    · rw [if_pos hterminal] at hfinal
      obtain ⟨-, rfl⟩ := Prod.mk.inj hfinal
      exact ⟨entries, hread, Or.inr hterminal⟩
    · rw [if_neg hterminal] at hfinal
      by_cases hrestarting : hasPhase .restarting last = true
      · rw [if_pos hrestarting] at hfinal
        exact hrecorded rfl (Or.inl rfl) hfinal
      · rw [if_neg hrestarting] at hfinal
        exact hrecorded rfl (Or.inr rfl) hfinal

/-- An entry is read back, and the log brought to its end at the next boot, exactly when the log can
be read and its last line has been ended. -/
theorem progressLog_iff (lim : Limits) (file : Option Bytes) (e : ProgressEntry) :
    RecordsEntry lim file e ∧ BootCompletes lim file ↔
      LogReadable lim file ∧ Ended file ∧ e.Plain := by
  rw [recordsEntry_iff]
  constructor
  · exact fun h => h.1
  · intro h
    exact ⟨h, bootCompletes_of_ended h.1 h.2.1⟩

end

/-! ## A line that a crash has torn -/

/-- An update that died while it was recording its second entry. -/
def tornLog : String := "\x7b\"phase\": \"fetch\"\x7d\n\x7b\"phase\": \"migr"

theorem readEntries_encode (lim : Limits) (s : String) :
    readEntries lim (some (encode s)) = collect (readEntry lim) (records s.toList) := by
  have hvalid : valid ((some (encode s) : Option Bytes).getD []) = true := Utf8.valid_encode s
  rw [readEntries_eq hvalid, fileRecords, Option.getD_some, text, Utf8.decode_encode]

theorem ok_of_toOption {ε α : Type} {x : Except ε α} {a : α} (h : x.toOption = some a) :
    x = .ok a := by
  cases x with
  | error e => cases h
  | ok b => rw [Option.some.inj h]

/-- Its log stays without an end, although `mark_boot_complete` has returned `True`. -/
theorem tornLog_without_end :
    ¬ BootCompletes defaultLimits (some (encode tornLog)) ∧
      ¬ (RecordsEntry defaultLimits (some (encode tornLog)) (interrupted []) ∧
        BootCompletes defaultLimits (some (encode tornLog))) := by
  have hbefore : (collect (readEntry defaultLimits) (records tornLog.toList)).toOption.any
      (fun entries => !isTerminal entries &&
        entries.getLast?.any fun last => !hasPhase .restarting last) = true := by
    decide +kernel
  have hafter : (collect (readEntry defaultLimits)
      (records (tornLog.toList ++ (interrupted []).line))).toOption.any
      (fun entries => !entries.isEmpty && !isTerminal entries) = true := by
    decide +kernel
  obtain ⟨before, hbefore, hopen⟩ := (Option.any_eq_true _ _).mp hbefore
  obtain ⟨after, hafter, hend⟩ := (Option.any_eq_true _ _).mp hafter
  simp only [Bool.and_eq_true, Option.any_eq_true, Bool.not_eq_true'] at hopen hend
  obtain ⟨hterminal, last, hlast, hrestarting⟩ := hopen
  -- the boot records that the update was interrupted, behind the torn line
  have hboot : markBootComplete defaultLimits [] .complete false (some (encode tornLog)) =
      .ok (true, recorded (some (encode tornLog)) (interrupted [])) := by
    rw [markBootComplete, readEntries_encode, ok_of_toOption hbefore]
    refine congrArg Except.ok ?_
    rw [finalize, hlast]
    simp only [hterminal, hrestarting, Bool.false_eq_true, if_false]
    rfl
  have hread : readEntries defaultLimits (recorded (some (encode tornLog)) (interrupted [])) =
      .ok after := by
    rw [recorded, Option.getD_some, ← Utf8.encode_append, readEntries_encode,
      String.toList_append, String.toList_ofList, ok_of_toOption hafter]
  have hnot : ¬ BootCompletes defaultLimits (some (encode tornLog)) := by
    intro h
    obtain ⟨entries, hread', hdone⟩ := h [] .complete _ hboot
    obtain rfl : after = entries := Except.ok.inj (hread.symm.trans hread')
    rcases hdone with rfl | hdone
    · cases hend.1
    · rw [hend.2] at hdone
      cases hdone
  exact ⟨hnot, fun h => hnot h.2⟩

end OpenHost.Update
