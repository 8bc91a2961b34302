import OpenHost.Library.Lines

/-!
# The entry of the swap file in fstab

`_set_fstab_entry` of the system agent's `swap.py` rewrites `/etc/fstab` line by line: what names the
swap file goes, and one entry is put at the end where there is to be one.  A file of which no line is
left is written as one empty line, which stays there for good.
-/

namespace OpenHost.Swap

open Text (isBlank)
open Lines (isLineBreak splitlines universalNewlines writeLines)

/-- `SWAP_PATH` -/
def swapPath : String := "/swapfile"

/-- `_FSTAB_LINE` -/
def fstabLine : String := swapPath ++ " none swap sw 0 0"

/-- `line.split()` -/
def words (line : List Char) : List (List Char) := (line.splitOnP isBlank).filter (· ≠ [])

/-- `line.split()[:1] == [SWAP_PATH]` -/
def isManaged (line : List Char) : Bool := (words line).take 1 = [swapPath.toList]

/-! ## The edit -/

/-- `path.read_text().splitlines() if path.exists() else []` -/
def fstabLines : Option String → List (List Char)
  | none => []
  | some text => splitlines (universalNewlines false text.toList)

/-- The lines that are kept. -/
def others (fstab : Option String) : List (List Char) := (fstabLines fstab).filter (!isManaged ·)

/-- `_set_fstab_entry`: the text that is written. -/
def setFstabEntry (present : Bool) (fstab : Option String) : String :=
  let kept := others fstab
  String.ofList (writeLines (if present then kept ++ [fstabLine.toList] else kept))

/-- One call after the other. -/
def setFstabEntries (calls : List Bool) (fstab : Option String) : Option String :=
  calls.foldl (fun fstab present => some (setFstabEntry present fstab)) fstab

/-- fstab names the swap file. -/
def names (fstab : Option String) : Bool := (fstabLines fstab).any isManaged

/-! ## What is to hold -/

/-- After the calls the file is as the last one alone would have left it, with one entry or none, and
has the other lines that it had before. -/
structure LastDecides (fstab : Option String) (calls : List Bool) (last : Bool) : Prop where
  alone : setFstabEntries (calls ++ [last]) fstab = some (setFstabEntry last fstab)
  entries : (fstabLines (setFstabEntries (calls ++ [last]) fstab)).countP isManaged =
    if last then 1 else 0
  kept : others (setFstabEntries (calls ++ [last]) fstab) = others fstab

/-! ## One call -/

variable {fstab : Option String} {present : Bool}

theorem isManaged_fstabLine : isManaged fstabLine.toList = true := by decide +kernel

theorem isManaged_nil : isManaged [] = false := by decide

theorem not_isLineBreak_of_mem_others {line : List Char} (h : line ∈ others fstab) :
    ∀ c ∈ line, isLineBreak c = false := by
  have hmem := (List.mem_filter.mp h).1
  cases fstab with
  | none => cases hmem
  | some text => exact Lines.not_isLineBreak_of_mem_splitlines hmem

theorem not_isLineBreak_fstabLine : ∀ c ∈ fstabLine.toList, isLineBreak c = false := by
  have hall : fstabLine.toList.all (!isLineBreak ·) = true := by decide +kernel
  simpa using hall

/-- Lines without line breaks are read back as they were written, if there is one. -/
theorem fstabLines_writeLines {lines : List (List Char)}
    (h : ∀ line ∈ lines, ∀ c ∈ line, isLineBreak c = false) :
    fstabLines (some (String.ofList (writeLines lines))) = if lines = [] then [[]] else lines := by
  change splitlines (universalNewlines false (String.ofList (writeLines lines)).toList) = _
  rw [String.toList_ofList, Lines.universalNewlines_writeLines h, Lines.splitlines_writeLines h]

/-- What one call leaves: with an entry at the end, or without one. -/
theorem fstabLines_setFstabEntry (present : Bool) (fstab : Option String) :
    fstabLines (some (setFstabEntry present fstab)) =
      if present then others fstab ++ [fstabLine.toList]
      else if others fstab = [] then [[]] else others fstab := by
  unfold setFstabEntry
  cases present with
  | false => exact fstabLines_writeLines fun line hline => not_isLineBreak_of_mem_others hline
  | true =>
    refine (fstabLines_writeLines fun line hline => ?_).trans (by simp)
    rcases List.mem_append.mp hline with hline | hline
    · exact not_isLineBreak_of_mem_others hline
    · rw [List.mem_singleton.mp hline]
      exact not_isLineBreak_fstabLine

theorem not_isManaged_of_mem_others {line : List Char} (h : line ∈ others fstab) :
    isManaged line = false := by
  simpa using (List.mem_filter.mp h).2

theorem filter_others (fstab : Option String) :
    (others fstab).filter (!isManaged ·) = others fstab := by
  apply List.filter_eq_self.mpr
  intro line hline
  simp [not_isManaged_of_mem_others hline]

/-- The other lines stay, or an empty one takes the place of none. -/
theorem others_setFstabEntry (present : Bool) (fstab : Option String) :
    others (some (setFstabEntry present fstab)) =
      if present = false ∧ others fstab = [] then [[]] else others fstab := by
  rw [others, fstabLines_setFstabEntry]
  cases present with
  | true => simp [filter_others, isManaged_fstabLine]
  | false =>
    by_cases hnone : others fstab = []
    · simp [hnone, isManaged_nil]
    · simp [hnone, filter_others]

theorem countP_others (fstab : Option String) : (others fstab).countP isManaged = 0 := by
  rw [List.countP_eq_zero]
  intro line hline
  simp [not_isManaged_of_mem_others hline]

/-- One entry is there, or none. -/
theorem countP_setFstabEntry (present : Bool) (fstab : Option String) :
    (fstabLines (some (setFstabEntry present fstab))).countP isManaged = if present then 1 else 0 := by
  rw [fstabLines_setFstabEntry]
  cases present with
  | true => simp [countP_others, isManaged_fstabLine]
  | false =>
    by_cases hnone : others fstab = []
    · simp [hnone, isManaged_nil]
    · simp [hnone, countP_others]

/-- The edit sees the other lines only. -/
theorem setFstabEntry_congr {fstab' : Option String} (h : others fstab = others fstab')
    (present : Bool) : setFstabEntry present fstab = setFstabEntry present fstab' := by
  simp [setFstabEntry, h]

theorem names_setFstabEntry (present : Bool) (fstab : Option String) :
    names (some (setFstabEntry present fstab)) = present := by
  have hcount := countP_setFstabEntry present fstab
  rw [names, Bool.eq_iff_iff, List.any_eq_true, ← List.countP_pos_iff, hcount]
  cases present <;> simp

/-! ## Many calls -/

theorem setFstabEntries_append (calls : List Bool) (last : Bool) (fstab : Option String) :
    setFstabEntries (calls ++ [last]) fstab =
      some (setFstabEntry last (setFstabEntries calls fstab)) := by
  simp [setFstabEntries]

/-- The empty line comes with the first call that takes the entry away, and stays. -/
theorem others_setFstabEntries (calls : List Bool) (fstab : Option String) :
    others (setFstabEntries calls fstab) =
      if false ∈ calls ∧ others fstab = [] then [[]] else others fstab := by
  induction calls using List.reverseRecOn with
  | nil => simp [setFstabEntries]
  | append_singleton calls call ih =>
    rw [setFstabEntries_append, others_setFstabEntry, ih]
    by_cases hnone : others fstab = []
    · -- either there is an empty line already, or this call may bring it
      by_cases hbefore : false ∈ calls <;> cases call <;> simp [hnone, hbefore]
    · simp [hnone]

/-- The last call decides exactly if there is another line, or no call takes the entry away. -/
theorem lastDecides_iff (fstab : Option String) (calls : List Bool) (last : Bool) :
    LastDecides fstab calls last ↔ others fstab ≠ [] ∨ ∀ call ∈ calls ++ [last], call = true := by
  constructor
  · intro h
    by_contra hnot
    obtain ⟨hnone, hcall⟩ := not_or.mp hnot
    have hfalse : false ∈ calls ++ [last] := by
      by_contra habsent
      exact hcall fun call hmem => by
        cases call with
        | true => rfl
        | false => exact absurd hmem habsent
    have hkept := h.kept
    rw [others_setFstabEntries, if_pos ⟨hfalse, not_not.mp hnone⟩, not_not.mp hnone] at hkept
    cases hkept
  · intro h
    have hkept : ∀ before, (∀ call ∈ before, call ∈ calls ++ [last]) →
        others (setFstabEntries before fstab) = others fstab := by
      intro before hbefore
      rw [others_setFstabEntries]
      apply if_neg
      rintro ⟨hmem, hnone⟩
      rcases h with hother | hall
      · exact hother hnone
      · cases hall _ (hbefore _ hmem)
    constructor
    · rw [setFstabEntries_append,
        setFstabEntry_congr (hkept calls fun call hcall => List.mem_append_left _ hcall)]
    · rw [setFstabEntries_append]
      exact countP_setFstabEntry last _
    · exact hkept _ fun _ hcall => hcall

/-- An entry that is taken away and set again in an empty file comes second. -/
theorem blank_line_stays : ¬ ∀ (fstab : Option String) (calls : List Bool) (last : Bool),
    LastDecides fstab calls last := by
  intro h
  have halone := (h (some "") [false] true).alone
  revert halone
  decide +kernel

end OpenHost.Swap
