import OpenHost.Library.Fields
import OpenHost.Library.Utf8

/-!
# Text files line by line

What Python reads from a file that holds one record a line: the bytes are decoded, `\r` and `\r\n`
become `\n`, the text is cut with `str.splitlines`, and lines that are blank are passed over.
`records` is what remains.  A line that is appended to a file continues its last line, unless that
one has been ended (`records_append_line`).
-/

namespace OpenHost.Lines

open Text Utf8

/-! ## Reading -/

/-- The characters at which `str.splitlines` cuts. -/
def isLineBreak (c : Char) : Bool :=
  ('\n' ≤ c && c ≤ '\r') || ('\x1c' ≤ c && c ≤ '\x1e') || c = '\u0085' || c = '\u2028' ||
    c = '\u2029'

/-- The translation of line ends in text mode; `true` after a `\r`. -/
def universalNewlines : Bool → List Char → List Char
  | _, [] => []
  | afterReturn, c :: cs =>
      if c = '\r' then '\n' :: universalNewlines true cs
      else if afterReturn ∧ c = '\n' then universalNewlines false cs
      else c :: universalNewlines false cs

/-- `str.splitlines`, of a text without `\r\n`. -/
def splitlines (text : List Char) : List (List Char) :=
  let lines := text.splitOnP isLineBreak
  if lines.getLast? = some [] then lines.dropLast else lines

/-- `str.strip` -/
def stripLine (l : List Char) : List Char := rstripChars (lstripChars l)

/-- `path.read_text(encoding="utf-8")`; `none` for a `UnicodeDecodeError`. -/
def readText (content : Bytes) : Option (List Char) :=
  if valid content then some (universalNewlines false (decode content).toList) else none

/-- A loop over lines that passes over blank ones, and over those for which `f` finds nothing. -/
def collect {ε α : Type} (f : List Char → Except ε (Option α)) :
    List (List Char) → Except ε (List α)
  | [] => .ok []
  | line :: lines =>
      if stripLine line = [] then collect f lines
      else do
        let found ← f (stripLine line)
        let rest ← collect f lines
        return found.toList ++ rest

/-- The lines that are not blank, stripped. -/
def records (text : List Char) : List (List Char) :=
  ((splitlines text).map stripLine).filter (· ≠ [])

/-- The characters of the last line, where nothing has ended it. -/
def torn (text : List Char) : List Char :=
  (text.reverse.takeWhile fun c => !isLineBreak c).reverse

/-! ## Records -/

/-- Without regard to the last line, which `str.splitlines` drops when it is empty. -/
theorem records_eq (text : List Char) :
    records text = ((text.splitOnP isLineBreak).map stripLine).filter (· ≠ []) := by
  rw [records, splitlines]
  split
  · rename_i hlast
    conv_rhs => rw [← List.dropLast_append_getLast? _ hlast]
    simp [stripLine, lstripChars, rstripChars]
  · rfl

theorem stripLine_stripLine (l : List Char) : stripLine (stripLine l) = stripLine l := strip_strip l

/-- A record is stripped already, and not blank. -/
theorem stripLine_of_mem_records {text l : List Char} (h : l ∈ records text) :
    stripLine l = l ∧ l ≠ [] := by
  obtain ⟨hmem, hne⟩ := List.mem_filter.mp h
  obtain ⟨line, -, rfl⟩ := List.mem_map.mp hmem
  exact ⟨stripLine_stripLine line, by simpa using hne⟩

@[simp] theorem records_nil : records [] = [] := rfl

/-- A line break keeps what stands on its two sides apart. -/
theorem records_append_break (a b : List Char) {c : Char} (hc : isLineBreak c = true) :
    records (a ++ c :: b) = records a ++ records b := by
  simp only [records_eq, List.splitOnP_append_cons a b hc, List.map_append, List.filter_append]

theorem records_break_cons (b : List Char) {c : Char} (hc : isLineBreak c = true) :
    records (c :: b) = records b := records_append_break [] b hc

/-- The records of a single line. -/
theorem records_of_line {l : List Char} (h : ∀ c ∈ l, isLineBreak c = false) :
    records l = if stripLine l = [] then [] else [stripLine l] := by
  rw [records_eq, List.splitOnP_eq_singleton h]
  by_cases hl : stripLine l = [] <;> simp [hl]

theorem not_isLineBreak_of_mem_torn {text : List Char} {c : Char} (h : c ∈ torn text) :
    isLineBreak c = false := by
  have := List.mem_takeWhile_imp (List.mem_reverse.mp h)
  simpa using this

/-- What is appended to a text continues its last line. -/
theorem records_append_torn (text : List Char) :
    ∃ whole, ∀ l, records (text ++ l) = records whole ++ records (torn text ++ l) := by
  have hsplit : text = (text.reverse.dropWhile fun c => !isLineBreak c).reverse ++ torn text := by
    rw [torn, ← List.reverse_append, List.takeWhile_append_dropWhile, List.reverse_reverse]
  cases hrest : text.reverse.dropWhile fun c => !isLineBreak c with
  | nil =>
    refine ⟨[], fun l => ?_⟩
    rw [hrest, List.reverse_nil, List.nil_append] at hsplit
    rw [← hsplit, records_nil, List.nil_append]
  | cons c rest =>
    have hc : isLineBreak c = true := by
      have hnil : (text.reverse.dropWhile fun c => !isLineBreak c) ≠ [] := by rw [hrest]; simp
      have hhead := List.head_dropWhile_not (fun c => !isLineBreak c) hnil
      simp only [hrest, List.head_cons] at hhead
      simpa using hhead
    refine ⟨rest.reverse, fun l => ?_⟩
    rw [hrest, List.reverse_cons, List.append_assoc] at hsplit
    conv_lhs => rw [hsplit]
    rw [List.append_assoc, List.append_assoc]
    exact records_append_break rest.reverse (torn text ++ l) hc

/-! ## Line ends -/

theorem isLineBreak_newline : isLineBreak '\n' = true := by decide

theorem isLineBreak_return : isLineBreak '\r' = true := by decide

/-- The translation of line ends leaves the records as they are. -/
theorem records_universalNewlines (text : List Char) :
    records (universalNewlines false text) = records text := by
  have key : ∀ text, (∀ line, records (line ++ universalNewlines false text) =
      records (line ++ text)) ∧ records (universalNewlines true text) = records text := by
    intro text
    induction text with
    | nil => exact ⟨fun _ => rfl, rfl⟩
    | cons c text ih =>
      obtain ⟨hline, hbreak⟩ := ih
      constructor
      · intro line
        by_cases hreturn : c = '\r'
        · subst hreturn
          rw [universalNewlines, if_pos rfl, records_append_break _ _ isLineBreak_newline,
            records_append_break _ _ isLineBreak_return, hbreak]
        · rw [universalNewlines, if_neg hreturn, if_neg (by simp)]
          have := hline (line ++ [c])
          rwa [List.append_assoc, List.append_assoc] at this
      · by_cases hreturn : c = '\r'
        · subst hreturn
          rw [universalNewlines, if_pos rfl, records_break_cons _ isLineBreak_newline,
            records_break_cons _ isLineBreak_return, hbreak]
        · rw [universalNewlines, if_neg hreturn]
          by_cases hnewline : c = '\n'
          · -- the second half of `\r\n`
            subst hnewline
            rw [if_pos (by simp), records_break_cons _ isLineBreak_newline]
            exact hline []
          · rw [if_neg (by simp [hnewline])]
            exact hline [c]
  exact (key text).1 []

/-- A text without `\r` is read as it stands. -/
theorem universalNewlines_of_not_mem {text : List Char} (h : '\r' ∉ text) :
    universalNewlines false text = text := by
  induction text with
  | nil => rfl
  | cons c text ih =>
    rw [List.mem_cons, not_or] at h
    rw [universalNewlines, if_neg (Ne.symm h.1), if_neg (by simp), ih h.2]

/-! ## Writing lines -/

/-- `"\n".join(lines) + "\n"` -/
def writeLines : List (List Char) → List Char
  | [] => ['\n']
  | [line] => line ++ ['\n']
  | line :: lines => line ++ '\n' :: writeLines lines

theorem writeLines_cons (line : List Char) {lines : List (List Char)} (h : lines ≠ []) :
    writeLines (line :: lines) = line ++ '\n' :: writeLines lines := by
  cases lines with
  | nil => exact absurd rfl h
  | cons next lines => rfl

/-- No piece of a text that has been cut has a line break in it. -/
theorem not_isLineBreak_of_mem_splitOnP {text line : List Char}
    (h : line ∈ text.splitOnP isLineBreak) : ∀ c ∈ line, isLineBreak c = false := by
  induction text generalizing line with
  | nil =>
    rw [List.splitOnP_nil, List.mem_singleton] at h
    simp [h]
  | cons d text ih =>
    rw [List.splitOnP_cons_eq_if_modifyHead] at h
    obtain ⟨first, others, hcut⟩ := List.exists_cons_of_ne_nil (List.splitOnP_ne_nil isLineBreak text)
    rw [hcut] at h ih
    by_cases hd : isLineBreak d = true
    · rw [if_pos hd, List.mem_cons] at h
      rcases h with rfl | h
      · simp
      · exact ih h
    · rw [if_neg hd, List.modifyHead_cons, List.mem_cons] at h
      rcases h with rfl | h
      · intro c hc
        rcases List.mem_cons.mp hc with rfl | hc
        · simpa using hd
        · exact ih List.mem_cons_self c hc
      · exact ih (List.mem_cons_of_mem _ h)

theorem not_isLineBreak_of_mem_splitlines {text line : List Char} (h : line ∈ splitlines text) :
    ∀ c ∈ line, isLineBreak c = false := by
  refine @not_isLineBreak_of_mem_splitOnP text line ?_
  unfold splitlines at h
  dsimp only at h
  split at h
  · exact List.mem_of_mem_dropLast h
  · exact h

/-- Where no line is written, the line break is there all the same. -/
theorem splitOnP_writeLines {lines : List (List Char)}
    (h : ∀ line ∈ lines, ∀ c ∈ line, isLineBreak c = false) :
    (writeLines lines).splitOnP isLineBreak = (if lines = [] then [[]] else lines) ++ [[]] := by
  induction lines with
  | nil => decide
  | cons line lines ih =>
    obtain ⟨hline, hlines⟩ := List.forall_mem_cons.mp h
    by_cases hnil : lines = []
    · subst hnil
      change (line ++ '\n' :: []).splitOnP isLineBreak = _
      rw [List.splitOnP_append_cons _ _ isLineBreak_newline, List.splitOnP_eq_singleton hline]
      simp
    · rw [writeLines_cons line hnil, List.splitOnP_append_cons _ _ isLineBreak_newline,
        List.splitOnP_eq_singleton hline, ih hlines, if_neg hnil]
      simp

/-- Lines that were written are read back; no line at all is read back as one that is empty. -/
theorem splitlines_writeLines {lines : List (List Char)}
    (h : ∀ line ∈ lines, ∀ c ∈ line, isLineBreak c = false) :
    splitlines (writeLines lines) = if lines = [] then [[]] else lines := by
  unfold splitlines
  simp [splitOnP_writeLines h]

theorem mem_writeLines {lines : List (List Char)} {c : Char} (h : c ∈ writeLines lines) :
    c = '\n' ∨ ∃ line ∈ lines, c ∈ line := by
  induction lines with
  | nil => exact .inl (List.mem_singleton.mp h)
  | cons line lines ih =>
    by_cases hnil : lines = []
    · subst hnil
      rcases List.mem_append.mp h with h | h
      · exact .inr ⟨line, List.mem_cons_self, h⟩
      · exact .inl (List.mem_singleton.mp h)
    · rw [writeLines_cons line hnil, List.mem_append, List.mem_cons] at h
      rcases h with h | h | h
      · exact .inr ⟨line, List.mem_cons_self, h⟩
      · exact .inl h
      · exact (ih h).imp_right fun ⟨l, hl, hc⟩ => ⟨l, List.mem_cons_of_mem _ hl, hc⟩

/-- No `\r` is written. -/
theorem universalNewlines_writeLines {lines : List (List Char)}
    (h : ∀ line ∈ lines, ∀ c ∈ line, isLineBreak c = false) :
    universalNewlines false (writeLines lines) = writeLines lines := by
  apply universalNewlines_of_not_mem
  intro hmem
  rcases mem_writeLines hmem with hnewline | ⟨line, hline, hc⟩
  · exact absurd hnewline (by decide)
  · have hbreak := h line hline _ hc
    rw [isLineBreak_return] at hbreak
    cases hbreak

/-! ## Loops over the records -/

section Collect

variable {ε α : Type} {f : List Char → Except ε (Option α)}

/-- Blank lines do not count. -/
theorem collect_records (text : List Char) : collect f (records text) = collect f (splitlines text) := by
  rw [records]
  generalize splitlines text = lines
  induction lines with
  | nil => rfl
  | cons line lines ih =>
    rw [List.map_cons]
    by_cases hline : stripLine line = []
    · rw [List.filter_cons_of_neg (by simpa using hline), ih, collect, if_pos hline]
    · rw [List.filter_cons_of_pos (by simpa using hline), collect, collect, stripLine_stripLine, ih]

/-- A line that is a record already. -/
theorem collect_cons_of_ne {line : List Char} (h : stripLine line = line) (hne : line ≠ [])
    (lines : List (List Char)) :
    collect f (line :: lines) = (do
      let found ← f line
      let rest ← collect f lines
      return found.toList ++ rest) := by
  rw [collect, h, if_neg hne]

/-- The loop goes on where it has come to. -/
theorem collect_append (as bs : List (List Char)) :
    collect f (as ++ bs) = (do
      let first ← collect f as
      let second ← collect f bs
      return first ++ second) := by
  induction as with
  | nil =>
    cases h : collect f bs with
    | error e => simp only [List.nil_append, h]; rfl
    | ok second => simp only [List.nil_append, h]; rfl
  | cons a as ih =>
    rw [List.cons_append, collect, collect]
    by_cases ha : stripLine a = []
    · rw [if_pos ha, if_pos ha, ih]
    · rw [if_neg ha, if_neg ha, ih]
      cases hline : f (stripLine a) with
      | error e => rfl
      | ok found =>
        cases hfirst : collect f as with
        | error e => rfl
        | ok first =>
          cases hsecond : collect f bs with
          | error e => rfl
          | ok second =>
            show Except.ok (found.toList ++ (first ++ second)) = .ok (found.toList ++ first ++ second)
            rw [List.append_assoc]

theorem collect_append_ok_iff {as bs : List (List Char)} {found : List α} :
    collect f (as ++ bs) = .ok found ↔
      ∃ first second, collect f as = .ok first ∧ collect f bs = .ok second ∧
        found = first ++ second := by
  rw [collect_append]
  cases collect f as with
  | error e => exact iff_of_false (by intro h; cases h) (by rintro ⟨_, _, h, -⟩; cases h)
  | ok first =>
    cases collect f bs with
    | error e => exact iff_of_false (by intro h; cases h) (by rintro ⟨_, _, -, h, -⟩; cases h)
    | ok second =>
      constructor
      · intro h
        exact ⟨first, second, rfl, rfl, (Except.ok.inj h).symm⟩
      · rintro ⟨_, _, hfirst, hsecond, rfl⟩
        rw [← Except.ok.inj hfirst, ← Except.ok.inj hsecond]
        rfl

/-- The loop comes to its end when no record stops it. -/
theorem collect_records_ok_iff (text : List Char) :
    (∃ found, collect f (records text) = .ok found) ↔ ∀ l ∈ records text, ∃ x, f l = .ok x := by
  have key : ∀ lines : List (List Char), (∀ l ∈ lines, stripLine l = l ∧ l ≠ []) →
      ((∃ found, collect f lines = .ok found) ↔ ∀ l ∈ lines, ∃ x, f l = .ok x) := by
    intro lines hlines
    induction lines with
    | nil => exact ⟨fun _ _ h => (List.not_mem_nil h).elim, fun _ => ⟨[], rfl⟩⟩
    | cons line lines ih =>
      obtain ⟨hstrip, hne⟩ := hlines line List.mem_cons_self
      rw [collect_cons_of_ne hstrip hne, List.forall_mem_cons,
        ← ih fun l hl => hlines l (List.mem_cons_of_mem line hl)]
      constructor
      · rintro ⟨found, h⟩
        cases hfirst : f line with
        | error e =>
          rw [hfirst] at h
          cases h
        | ok x =>
          cases hrest : collect f lines with
          | error e =>
            rw [hfirst, hrest] at h
            cases h
          | ok rest => exact ⟨⟨x, rfl⟩, rest, rfl⟩
      · rintro ⟨⟨x, hfirst⟩, rest, hrest⟩
        rw [hfirst, hrest]
        exact ⟨_, rfl⟩
  exact key (records text) fun l hl => stripLine_of_mem_records hl

end Collect

/-! ## Appending -/

/-- The text of a file before line ends are translated. -/
def text (content : Bytes) : List Char := (decode content).toList

/-- The records of a file. -/
def fileRecords (file : Option Bytes) : List (List Char) := records (text (file.getD []))

/-- What is read from a file. -/
theorem readText_eq_some_iff {content : Bytes} {t : List Char} :
    readText content = some t ↔
      valid content = true ∧ t = universalNewlines false (text content) := by
  rw [readText]
  split
  · rename_i h
    simp [h, text, eq_comm]
  · rename_i h
    simp [h]

theorem encode_decode {content : Bytes} (h : valid content = true) :
    encode (decode content) = content := of_decide_eq_true h

/-- The last byte of a file that ends with `\n` stands for that character. -/
theorem text_of_endsWith_newline {content : Bytes} (hvalid : valid content = true)
    (h : content.getLast? = some 0x0A) : ∃ t, text content = t ++ ['\n'] := by
  have hcontent : (text content).flatMap String.utf8EncodeChar = content := encode_decode hvalid
  rcases List.eq_nil_or_concat (text content) with hnil | ⟨t, c, ht⟩
  · rw [hnil] at hcontent
    rw [← hcontent] at h
    cases h
  · rw [List.concat_eq_append] at ht
    rw [ht, List.flatMap_append, List.flatMap_singleton] at hcontent
    rw [← hcontent, List.getLast?_append_of_ne_nil _ (utf8EncodeChar_ne_nil c)] at h
    have hbyte := mem_utf8EncodeChar_of_lt (List.mem_of_getLast? h) (by decide)
    have hc : c = '\n' := by
      rw [← Char.ofNat_toNat c, hbyte.2]
      rfl
    exact ⟨t, by rw [ht, hc]⟩

theorem text_append {content : Bytes} (h : valid content = true) (l : List Char) :
    text (content ++ encode (String.ofList l)) = text content ++ l := by
  have happ := decode_encode_append (decode content) (encode (String.ofList l))
  rw [encode_decode h, decode_encode] at happ
  rw [text, happ, String.toList_append, String.toList_ofList, text]

theorem valid_append {content : Bytes} (h : valid content = true) (l : List Char) :
    valid (content ++ encode (String.ofList l)) = true := by
  rw [← encode_decode h, ← encode_append]
  exact valid_encode _

end OpenHost.Lines
