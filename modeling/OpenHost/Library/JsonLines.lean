import OpenHost.Library.JsonDumps
import OpenHost.Library.Lines

/-!
# One dictionary a line

What becomes of a dictionary that is appended to a text as a line of its own, and of one that is
appended to a line that was never ended.
-/

namespace OpenHost.JsonLines

open Text Lines Json

theorem not_isLineBreak_of_printable {c : Char} (h : ' ' ≤ c ∧ c ≤ '~') : isLineBreak c = false := by
  have hlow : 0x20 ≤ c.toNat := h.1
  have hhigh : c.toNat ≤ 0x7E := h.2
  have key : ∀ n : Fin 0x7F, 0x20 ≤ n.val → isLineBreak (Char.ofNat n.val) = false := by
    decide +kernel
  have hc := key ⟨c.toNat, by omega⟩ hlow
  rwa [Char.ofNat_toNat] at hc

/-- White space between tokens is white space between words. -/
theorem isBlank_of_isSpace {c : Char} (h : Json.isSpace c = true) : isBlank c = true := by
  simp only [Json.isSpace, Bool.or_eq_true, decide_eq_true_eq] at h
  rcases h with ((rfl | rfl) | rfl) | rfl <;> decide

section

variable {spaced : Bool} {ms : List (PyStr × Scalar)}

theorem not_isLineBreak_of_mem_dictText {c : Char} (h : c ∈ dictText spaced ms) :
    isLineBreak c = false := not_isLineBreak_of_printable (printable_dictText h)

/-- What stands before a dictionary is stripped from the left only. -/
theorem stripLine_append_dictText (l : List Char) :
    stripLine (l ++ dictText spaced ms) = lstripChars l ++ dictText spaced ms := by
  have hopen : isBlank '{' = false := by decide
  have hclose : isBlank '}' = false := by decide
  have hleft : lstripChars (l ++ dictText spaced ms) = lstripChars l ++ dictText spaced ms := by
    rw [dictText, List.cons_append]
    exact lstripChars_append_cons hopen l _
  rw [stripLine, hleft, dictText, ← List.append_assoc]
  simp [rstripChars, hclose]

theorem stripLine_dictText : stripLine (dictText spaced ms) = dictText spaced ms :=
  stripLine_append_dictText []

/-- A dictionary on a line of its own. -/
theorem records_dictText_newline :
    records (dictText spaced ms ++ ['\n']) = [dictText spaced ms] := by
  rw [records_append_break _ _ isLineBreak_newline, records_nil, List.append_nil,
    records_of_line fun c hc => not_isLineBreak_of_mem_dictText hc, stripLine_dictText, if_neg]
  simp [dictText]

/-- A dictionary behind a line that was never ended. -/
theorem records_torn_dictText (text : List Char) :
    records (torn text ++ (dictText spaced ms ++ ['\n'])) =
      [lstripChars (torn text) ++ dictText spaced ms] := by
  have hline : ∀ c ∈ torn text ++ dictText spaced ms, isLineBreak c = false := by
    intro c hc
    rcases List.mem_append.mp hc with hc | hc
    · exact not_isLineBreak_of_mem_torn hc
    · exact not_isLineBreak_of_mem_dictText hc
  rw [← List.append_assoc, records_append_break _ _ isLineBreak_newline, records_nil,
    List.append_nil, records_of_line hline, stripLine_append_dictText, if_neg]
  simp [dictText]

end

end OpenHost.JsonLines
