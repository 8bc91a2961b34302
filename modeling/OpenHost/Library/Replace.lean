import Mathlib.Data.List.Infix

/-!
# Replacing a text in another

Occurrences are replaced from the left, and what has been replaced is not read again.  The last part
is about texts that are segments between separators: where a segment is replaced by another, at one
place that is known, the rest stays as it is exactly if the segment occurs nowhere else.
-/

namespace OpenHost.Replace

variable {α : Type}

section

variable [DecidableEq α] {pat rep : List α}

/-- Skip the first `k` symbols, then put `rep` in place of `pat`. -/
def replaceFrom (pat rep : List α) : Nat → List α → List α
  | _, [] => []
  | k + 1, _ :: s => replaceFrom pat rep k s
  | 0, c :: s =>
    if pat.isPrefixOf (c :: s) then rep ++ replaceFrom pat rep (pat.length - 1) s
    else c :: replaceFrom pat rep 0 s

/-- `rep` in place of every `pat`; an empty `pat` is never replaced. -/
def replaceAll (pat rep s : List α) : List α := if pat = [] then s else replaceFrom pat rep 0 s

theorem replaceFrom_drop (k : Nat) (s : List α) :
    replaceFrom pat rep k s = replaceFrom pat rep 0 (s.drop k) := by
  induction s generalizing k with
  | nil => simp [replaceFrom]
  | cons c s ih =>
    cases k with
    | zero => rfl
    | succ k => exact ih k

@[simp] theorem replaceAll_nil : replaceAll pat rep [] = [] := by
  unfold replaceAll
  split <;> rfl

/-- The text begins with an occurrence. -/
theorem replaceAll_append (hpat : pat ≠ []) (s : List α) :
    replaceAll pat rep (pat ++ s) = rep ++ replaceAll pat rep s := by
  obtain ⟨c, pat', rfl⟩ := List.exists_cons_of_ne_nil hpat
  have hprefix : (c :: pat').isPrefixOf (c :: (pat' ++ s)) = true := by simp
  rw [replaceAll, if_neg hpat, replaceAll, if_neg hpat, List.cons_append, replaceFrom,
    if_pos hprefix, replaceFrom_drop]
  simp

/-- The text does not begin with one. -/
theorem replaceAll_cons {c : α} {s : List α} (h : ¬ pat <+: c :: s) :
    replaceAll pat rep (c :: s) = c :: replaceAll pat rep s := by
  unfold replaceAll
  split
  · rfl
  · rw [replaceFrom, if_neg]
    rwa [List.isPrefixOf_iff_prefix]

/-- No occurrence begins in the first part. -/
theorem replaceAll_append_of_not_start {t : List α} (s : List α)
    (h : ∀ u v, t = u ++ v → v ≠ [] → ¬ pat <+: v ++ s) :
    replaceAll pat rep (t ++ s) = t ++ replaceAll pat rep s := by
  induction t with
  | nil => rfl
  | cons c t ih =>
    have hfirst : ¬ pat <+: c :: (t ++ s) := h [] (c :: t) rfl (List.cons_ne_nil c t)
    have hrest := ih fun u v ht hv => h (c :: u) v (by rw [ht, List.cons_append]) hv
    rw [List.cons_append, replaceAll_cons hfirst, hrest, List.cons_append]

/-- A text without an occurrence stays as it is. -/
theorem replaceAll_of_not_occurs {s : List α} (h : ¬ pat <:+: s) : replaceAll pat rep s = s := by
  have hs : replaceAll pat rep (s ++ []) = s ++ replaceAll pat rep [] :=
    replaceAll_append_of_not_start [] ?_
  · simpa using hs
  · intro u v hs _ hv
    apply h
    rw [List.append_nil] at hv
    exact hv.isInfix.trans ⟨u, [], by rw [List.append_nil, hs]⟩

/-- The first occurrence is replaced, and begins no later than a given one. -/
theorem replaceAll_first (rep : List α) (hpat : pat ≠ []) {s x y : List α} (h : s = x ++ (pat ++ y)) :
    ∃ a b, s = a ++ (pat ++ b) ∧ a.length ≤ x.length ∧
      replaceAll pat rep s = a ++ (rep ++ replaceAll pat rep b) := by
  induction s generalizing x with
  | nil =>
    have hnil : pat = [] := by
      have := (List.append_eq_nil_iff.mp h.symm).2
      exact (List.append_eq_nil_iff.mp this).1
    exact absurd hnil hpat
  | cons c s ih =>
    by_cases hprefix : pat <+: c :: s
    · obtain ⟨b, hb⟩ := hprefix
      refine ⟨[], b, hb.symm, Nat.zero_le _, ?_⟩
      rw [← hb, replaceAll_append hpat, List.nil_append]
    · cases x with
      | nil => exact absurd ⟨y, h.symm⟩ hprefix
      | cons d x =>
        rw [List.cons_append, List.cons.injEq] at h
        obtain ⟨rfl, h⟩ := h
        obtain ⟨a, b, hs, hlen, hrep⟩ := ih h
        refine ⟨c :: a, b, by rw [hs, List.cons_append], Nat.succ_le_succ hlen, ?_⟩
        rw [replaceAll_cons hprefix, hrep, List.cons_append]

end

/-! ## Segments between separators -/

/-- A segment with the separators around it. -/
def delimit (sep : α) (seg : List α) : List α := sep :: (seg ++ [sep])

section Segments

variable {sep : α} {seg seg' : List α}

theorem delimit_ne_nil (sep : α) (seg : List α) : delimit sep seg ≠ [] := List.cons_ne_nil _ _

theorem delimit_append (sep : α) (seg s : List α) :
    delimit sep seg ++ s = sep :: (seg ++ sep :: s) := by
  simp [delimit]

@[simp] theorem length_delimit (sep : α) (seg : List α) :
    (delimit sep seg).length = seg.length + 2 := by
  simp [delimit]

/-- The first segment of a text does not depend on what follows the separator after it. -/
theorem segment_eq (hseg : sep ∉ seg) (hseg' : sep ∉ seg') {p s s' b b' : List α}
    (h : p ++ sep :: s = seg ++ sep :: b) (h' : p ++ sep :: s' = seg' ++ sep :: b') :
    seg = seg' := by
  classical
  have htake : ∀ t u : List α, sep ∉ t → (t ++ sep :: u).takeWhile (· ≠ sep) = t := by
    intro t u ht
    rw [List.takeWhile_append_of_pos]
    · simp
    · intro c hc
      rw [decide_eq_true_eq]
      rintro rfl
      exact ht hc
  have hsame : (p ++ sep :: s).takeWhile (· ≠ sep) = (p ++ sep :: s').takeWhile (· ≠ sep) := by
    simp [List.takeWhile_append]
  rw [h, h', htake seg b hseg, htake seg' b' hseg'] at hsame
  exact hsame

/-- A delimited segment that begins in the text before a separator ends with it or before. -/
theorem isPrefix_of_delimit (hseg : sep ∉ seg) {v s : List α} (hv : v ≠ [])
    (h : delimit sep seg <+: v ++ sep :: s) : delimit sep seg <+: v ++ [sep] := by
  obtain ⟨t, ht⟩ := h
  rw [delimit_append] at ht
  obtain ⟨c, v', rfl⟩ := List.exists_cons_of_ne_nil hv
  rw [List.cons_append, List.cons.injEq] at ht
  obtain ⟨rfl, ht⟩ := ht
  rw [List.append_eq_append_iff] at ht
  rcases ht with ⟨w, hw, hrest⟩ | ⟨w, hw, hrest⟩
  · -- the segment ends in the text
    cases w with
    | nil =>
      refine ⟨[], ?_⟩
      rw [List.append_nil] at hw
      simp [delimit, hw]
    | cons d w =>
      rw [List.cons_append, List.cons.injEq] at hrest
      refine ⟨w ++ [sep], ?_⟩
      rw [delimit_append, hw, hrest.1]
      simp
  · cases w with
    | nil =>
      refine ⟨[], ?_⟩
      rw [List.append_nil] at hw
      simp [delimit, hw]
    | cons d w =>
      -- the separator would be a symbol of the segment
      rw [List.cons_append, List.cons.injEq] at hrest
      exact absurd (by rw [hw, ← hrest.1]; simp) hseg

/-- Two texts that agree up to a separator, and differ from an earlier place on in the segment that
begins there, do not. -/
theorem segment_eq_of_before (hseg : sep ∉ seg) (hseg' : sep ∉ seg') {p a x x' b b' : List α}
    (hs : p ++ sep :: x = a ++ (delimit sep seg ++ b))
    (hr : p ++ sep :: x' = a ++ (delimit sep seg' ++ b')) (hlen : a.length < p.length) :
    seg = seg' := by
  have hprefix : a <+: p := by
    have ha : a <+: p ++ sep :: x := ⟨_, hs.symm⟩
    exact List.prefix_of_prefix_length_le ha (List.prefix_append p _) hlen.le
  obtain ⟨p', rfl⟩ := hprefix
  cases p' with
  | nil => simp at hlen
  | cons c p' =>
    rw [List.append_assoc, List.append_cancel_left_eq, delimit_append, List.cons_append,
      List.cons.injEq] at hs hr
    exact segment_eq hseg hseg' hs.2 hr.2

variable [DecidableEq α]

/-- Without an occurrence up to a separator, the text before it stays as it is. -/
theorem replaceAll_before (hseg : sep ∉ seg) (rep : List α) {pre : List α}
    (hpre : ¬ delimit sep seg <:+: pre ++ [sep]) (s : List α) :
    replaceAll (delimit sep seg) rep (pre ++ sep :: s) =
      pre ++ replaceAll (delimit sep seg) rep (sep :: s) := by
  apply replaceAll_append_of_not_start
  intro u v hpq hv h
  apply hpre
  refine (isPrefix_of_delimit hseg hv h).isInfix.trans ⟨u, [], ?_⟩
  rw [hpq, List.append_nil, List.append_assoc]

/-- Nothing changes exactly if there is no occurrence. -/
theorem replaceAll_eq_self_iff (hseg : sep ∉ seg) (hseg' : sep ∉ seg') (hne : seg ≠ seg')
    {s : List α} :
    replaceAll (delimit sep seg) (delimit sep seg') s = s ↔ ¬ delimit sep seg <:+: s := by
  refine ⟨?_, replaceAll_of_not_occurs⟩
  rintro heq ⟨x, y, hxy⟩
  obtain ⟨a, b, hs, -, hrep⟩ := replaceAll_first (delimit sep seg')
    (delimit_ne_nil sep seg) (hxy.symm.trans (List.append_assoc x _ y))
  rw [heq, hs, List.append_cancel_left_eq, delimit_append, delimit_append, List.cons.injEq] at hrep
  exact hne (segment_eq hseg hseg' (s := b) rfl hrep.2)

/-- The segment at the known place is replaced, and nothing else, exactly if it occurs neither before
that place nor after it. -/
theorem replaceAll_segment_iff (hseg : sep ∉ seg) (hseg' : sep ∉ seg') (hne : seg ≠ seg')
    {pre rest : List α} :
    replaceAll (delimit sep seg) (delimit sep seg') (pre ++ (delimit sep seg ++ rest)) =
        pre ++ (delimit sep seg' ++ rest) ↔
      ¬ delimit sep seg <:+: pre ++ [sep] ∧ ¬ delimit sep seg <:+: rest := by
  by_cases hpre : delimit sep seg <:+: pre ++ [sep]
  · -- an occurrence before the place is replaced first, and shows
    refine iff_of_false ?_ (fun h => h.1 hpre)
    intro heq
    obtain ⟨x, y, hxy⟩ := hpre
    have hplace : pre ++ (delimit sep seg ++ rest) =
        x ++ (delimit sep seg ++ (y ++ (seg ++ sep :: rest))) := by
      rw [delimit_append sep seg rest, List.append_cons, ← hxy]
      simp
    obtain ⟨a, b, hs, hlen, hrep⟩ := replaceAll_first (delimit sep seg')
      (delimit_ne_nil sep seg) hplace
    have hshort : a.length < pre.length := by
      have := congrArg List.length hxy
      simp at this
      omega
    rw [heq] at hrep
    rw [delimit_append sep seg rest] at hs
    rw [delimit_append sep seg' rest] at hrep
    exact hne (segment_eq_of_before hseg hseg' hs hrep hshort)
  · have hplace : replaceAll (delimit sep seg) (delimit sep seg') (pre ++ (delimit sep seg ++ rest)) =
        pre ++ (delimit sep seg' ++ replaceAll (delimit sep seg) (delimit sep seg') rest) := by
      have hbefore := replaceAll_before hseg (delimit sep seg') hpre (seg ++ sep :: rest)
      rw [← delimit_append, replaceAll_append (delimit_ne_nil sep seg)] at hbefore
      exact hbefore
    rw [hplace, List.append_cancel_left_eq, List.append_cancel_left_eq,
      replaceAll_eq_self_iff hseg hseg' hne]
    exact ⟨fun h => ⟨hpre, h⟩, fun h => h.2⟩

/-- A segment at the end of the text has no separator after it, and is not replaced. -/
theorem replaceAll_last_ne (hseg : sep ∉ seg) (hseg' : sep ∉ seg') (hne : seg ≠ seg')
    {pre : List α} :
    replaceAll (delimit sep seg) (delimit sep seg') (pre ++ sep :: seg) ≠ pre ++ sep :: seg' := by
  intro heq
  by_cases hocc : delimit sep seg <:+: pre ++ sep :: seg
  · obtain ⟨x, y, hxy⟩ := hocc
    obtain ⟨a, b, hs, hlen, hrep⟩ := replaceAll_first (delimit sep seg')
      (delimit_ne_nil sep seg) (hxy.symm.trans (List.append_assoc x _ y))
    have hshort : a.length < pre.length := by
      have := congrArg List.length hxy
      simp at this
      omega
    rw [heq] at hrep
    exact hne (segment_eq_of_before hseg hseg' hs hrep hshort)
  · rw [replaceAll_of_not_occurs hocc, List.append_cancel_left_eq, List.cons.injEq] at heq
    exact hne heq.2

end Segments

end OpenHost.Replace
