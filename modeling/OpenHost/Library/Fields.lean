import Mathlib.Data.List.TakeWhile
import OpenHost.Library.Text

/-!
# Fields between separators

`str.strip` and `str.split` in Python's sense, with the lemmas that relate them: a
separator that is not white space cuts the text at the same place before and after stripping, and
fields that were joined with `"; "` are split back.
-/

namespace OpenHost.Text

/-- `s.split(c)` -/
def split (c : Char) (s : String) : List String := (s.toList.splitOn c).map String.ofList

@[simp] theorem toList_stripBlank (s : String) :
    (stripBlank s).toList = rstripChars (lstripChars s.toList) := by simp [stripBlank]

/-! ## Stripping -/

theorem dropWhile_append_cons {p : Char → Bool} {c : Char} (hc : p c = false) (a b : List Char) :
    (a ++ c :: b).dropWhile p = a.dropWhile p ++ c :: b := by
  induction a with
  | nil => simp [hc]
  | cons d a ih =>
    cases hd : p d with
    | true => simpa [hd] using ih
    | false => simp [hd]

theorem lstripChars_append_cons {c : Char} (hc : isBlank c = false) (a b : List Char) :
    lstripChars (a ++ c :: b) = lstripChars a ++ c :: b :=
  dropWhile_append_cons hc a b

theorem rstripChars_append_cons {c : Char} (hc : isBlank c = false) (a b : List Char) :
    rstripChars (a ++ c :: b) = a ++ c :: rstripChars b := by
  rw [rstripChars, List.reverse_append, List.reverse_cons, List.append_assoc,
    List.singleton_append, dropWhile_append_cons hc]
  simp [rstripChars]

/-- A character that is not white space separates what is stripped on its two sides. -/
theorem strip_append_cons {c : Char} (hc : isBlank c = false) (a b : List Char) :
    rstripChars (lstripChars (a ++ c :: b)) = lstripChars a ++ c :: rstripChars b := by
  rw [lstripChars_append_cons hc, rstripChars_append_cons hc]

theorem isBlank_head_lstripChars {l : List Char} {c : Char} {rest : List Char}
    (h : lstripChars l = c :: rest) : isBlank c = false := by
  have hdrop : l.dropWhile isBlank = c :: rest := h
  have hne : l.dropWhile isBlank ≠ [] := by simp [hdrop]
  have hhead := List.head_dropWhile_not isBlank hne
  simpa [hdrop] using hhead

theorem lstripChars_eq_self_iff {l : List Char} :
    lstripChars l = l ↔ ∀ c, l.head? = some c → isBlank c = false := by
  cases l with
  | nil => simp [lstripChars]
  | cons c l =>
    constructor
    · intro h d hd
      rw [← Option.some.inj hd]
      exact isBlank_head_lstripChars h
    · intro h
      simp [lstripChars, h c rfl]

theorem rstripChars_eq_self_iff {l : List Char} :
    rstripChars l = l ↔ ∀ c, l.getLast? = some c → isBlank c = false := by
  rw [rstripChars, List.reverse_eq_iff, ← lstripChars, lstripChars_eq_self_iff]
  simp

theorem lstripChars_lstripChars (l : List Char) : lstripChars (lstripChars l) = lstripChars l := by
  rw [lstripChars_eq_self_iff]
  intro c hc
  cases h : lstripChars l with
  | nil => simp [h] at hc
  | cons d rest =>
    rw [h] at hc
    rw [← Option.some.inj hc]
    exact isBlank_head_lstripChars h

theorem rstripChars_rstripChars (l : List Char) : rstripChars (rstripChars l) = rstripChars l := by
  have h := lstripChars_lstripChars l.reverse
  simp only [lstripChars] at h
  simp [rstripChars, h]

theorem rstripChars_initial (l : List Char) : rstripChars l <+: l := by
  rw [rstripChars, ← List.reverse_suffix, List.reverse_reverse]
  exact List.dropWhile_suffix isBlank

theorem lstripChars_strip (l : List Char) :
    lstripChars (rstripChars (lstripChars l)) = rstripChars (lstripChars l) := by
  rw [lstripChars_eq_self_iff]
  intro c hc
  cases h : rstripChars (lstripChars l) with
  | nil => simp [h] at hc
  | cons d rest =>
    -- the first character left is the first one that `lstrip` left
    obtain ⟨tail, htail⟩ := rstripChars_initial (lstripChars l)
    rw [h] at hc htail
    rw [← Option.some.inj hc]
    exact isBlank_head_lstripChars htail.symm

/-- Stripping twice strips nothing more. -/
theorem strip_strip (l : List Char) :
    rstripChars (lstripChars (rstripChars (lstripChars l))) = rstripChars (lstripChars l) := by
  rw [lstripChars_strip, rstripChars_rstripChars]

theorem strip_within (l : List Char) : rstripChars (lstripChars l) <:+: l :=
  (rstripChars_initial (lstripChars l)).isInfix.trans (List.dropWhile_suffix isBlank).isInfix

/-- What is left of a text does not stand at its front with something else than white space after
it. -/
theorem not_strip_append_cons {c : Char} (hc : isBlank c = false) (l rest : List Char) :
    l ≠ rstripChars (lstripChars l) ++ c :: rest := by
  intro h
  have hstrip := strip_append_cons hc (rstripChars (lstripChars l)) rest
  rw [← h, lstripChars_strip] at hstrip
  have hlen := congrArg List.length hstrip
  simp at hlen

/-- Stripping the end first makes no difference. -/
theorem strip_rstripChars (l : List Char) :
    rstripChars (lstripChars (rstripChars l)) = rstripChars (lstripChars l) := by
  -- the text is white space followed by what `lstrip` leaves of it
  have hsplit : l = l.takeWhile isBlank ++ lstripChars l := List.takeWhile_append_dropWhile.symm
  have hblank : ∀ c ∈ l.takeWhile isBlank, isBlank c = true :=
    List.all_eq_true.mp List.all_takeWhile
  cases h : lstripChars l with
  | nil =>
    have hall : ∀ c ∈ l, isBlank c = true := List.dropWhile_eq_nil_iff.mp h
    have hr : lstripChars (rstripChars l) = [] := by
      apply List.dropWhile_eq_nil_iff.mpr
      intro c hc
      exact hall c ((rstripChars_initial l).mem hc)
    rw [hr]
  | cons c w =>
    have hc := isBlank_head_lstripChars h
    have hu : lstripChars (l.takeWhile isBlank) = [] := List.dropWhile_eq_nil_iff.mpr hblank
    have hr : rstripChars (c :: w) = c :: rstripChars w := rstripChars_append_cons hc [] w
    have hrr : rstripChars (c :: rstripChars w) = c :: rstripChars (rstripChars w) :=
      rstripChars_append_cons hc [] (rstripChars w)
    rw [h] at hsplit
    rw [hr]
    conv => lhs; rw [hsplit]
    rw [rstripChars_append_cons hc, lstripChars_append_cons hc, hu, List.nil_append, hrr,
      rstripChars_rstripChars]

@[simp] theorem stripBlank_stripBlank (s : String) : stripBlank (stripBlank s) = stripBlank s := by
  rw [← String.toList_inj]
  simp only [toList_stripBlank, strip_strip]

theorem strip_cons_of_blank {c : Char} (hc : isBlank c = true) (l : List Char) :
    lstripChars (c :: l) = lstripChars l := by
  simp [lstripChars, hc]

/-! ## Splitting what was joined -/

theorem splitOn_of_not_mem {c : Char} {l : List Char} (h : c ∉ l) : l.splitOn c = [l] :=
  List.splitOn_eq_singleton h

/-- No field holds the separator. -/
theorem not_mem_of_mem_splitOn {α : Type*} [DecidableEq α] {c : α} {l p : List α}
    (h : p ∈ l.splitOn c) : c ∉ p := by
  induction l generalizing p with
  | nil =>
    have hp : p = [] := by simpa using h
    simp [hp]
  | cons d l ih =>
    rw [List.splitOn_cons_eq_if_modifyHead] at h
    obtain ⟨q, qs, hq⟩ := List.exists_cons_of_ne_nil (List.splitOn_ne_nil c l)
    rw [hq] at h ih
    split at h
    · rcases List.mem_cons.mp h with rfl | h
      · simp
      · exact ih h
    · rename_i hd
      simp only [List.modifyHead_cons, List.mem_cons] at h
      rcases h with rfl | h
      · have hcq := ih List.mem_cons_self
        simp only [beq_iff_eq] at hd
        simp only [List.mem_cons, not_or]
        exact ⟨fun hcd => hd hcd.symm, hcq⟩
      · exact ih (List.mem_cons_of_mem q h)

/-- Everything but the separator is in some field. -/
theorem exists_mem_splitOn {α : Type*} [DecidableEq α] {c d : α} {l : List α} (h : d ∈ l)
    (hd : d ≠ c) : ∃ p ∈ l.splitOn c, d ∈ p := by
  induction l with
  | nil => cases h
  | cons e l ih =>
    rw [List.splitOn_cons_eq_if_modifyHead]
    obtain ⟨q, qs, hq⟩ := List.exists_cons_of_ne_nil (List.splitOn_ne_nil c l)
    rw [hq] at ih ⊢
    split
    · rename_i he
      rcases List.mem_cons.mp h with rfl | h
      · exact absurd (by simpa using he) hd
      · obtain ⟨p, hp, hdp⟩ := ih h
        exact ⟨p, List.mem_cons_of_mem _ hp, hdp⟩
    · rw [List.modifyHead_cons]
      rcases List.mem_cons.mp h with rfl | h
      · exact ⟨d :: q, List.mem_cons_self, List.mem_cons_self⟩
      · obtain ⟨p, hp, hdp⟩ := ih h
        rcases List.mem_cons.mp hp with rfl | hp
        · exact ⟨e :: p, List.mem_cons_self, List.mem_cons_of_mem _ hdp⟩
        · exact ⟨p, List.mem_cons_of_mem _ hp, hdp⟩

/-- Parts without the separator that were joined by it and a blank are split back, with the blank
in front of all but the first. -/
theorem splitOn_intercalate_blank {c : Char} (hblank : ' ' ≠ c) (p : List Char)
    (ps : List (List Char)) (h : ∀ q ∈ p :: ps, c ∉ q) :
    ([c, ' '].intercalate (p :: ps)).splitOn c = p :: ps.map (' ' :: ·) := by
  induction ps generalizing p with
  | nil => simpa using splitOn_of_not_mem (h p List.mem_cons_self)
  | cons q ps ih =>
    have hp : c ∉ p := h p List.mem_cons_self
    have hrest : ∀ r ∈ q :: ps, c ∉ r := fun r hr => h r (List.mem_cons_of_mem p hr)
    rw [List.intercalate_cons_cons]
    have hshape : p ++ [c, ' '] ++ [c, ' '].intercalate (q :: ps) =
        p ++ c :: (' ' :: [c, ' '].intercalate (q :: ps)) := by simp
    rw [hshape, List.splitOn_append_cons_self_of_not_mem hp]
    rw [List.splitOn_cons_eq_if_modifyHead]
    simp [hblank, ih q hrest]

end OpenHost.Text
