import Mathlib.Data.List.TakeWhile

/-!
# Scanners that look no further than the line

A scanner reads from the front of a text and gives what is left.  Many look ahead to decide how to go
on, and some go on over several lines, but what they look ahead at is on the line where they stop.
`Local` says so: what the scanner has read it reads again before every rest whose first line is the
same.  It says too which characters were read.  Each combinator keeps it.
-/

namespace OpenHost

variable {α β ρ : Type}

/-! ## Texts with the same first line -/

/-- The texts are the same up to the first line break, or to their ends. -/
inductive SameLine : List Char → List Char → Prop
  | nil : SameLine [] []
  | newline (s s' : List Char) : SameLine ('\n' :: s) ('\n' :: s')
  | cons (c : Char) {s s' : List Char} (h : SameLine s s') : SameLine (c :: s) (c :: s')

namespace SameLine

theorem append (c : List Char) {s s' : List Char} (h : SameLine s s') :
    SameLine (c ++ s) (c ++ s') := by
  induction c with
  | nil => exact h
  | cons x c ih => exact .cons x ih

theorem head? {s s' : List Char} (h : SameLine s s') : s'.head? = s.head? := by
  cases h <;> rfl

theorem isPrefixOf {s s' : List Char} (h : SameLine s s') {word : List Char} (hword : '\n' ∉ word) :
    word.isPrefixOf s' = word.isPrefixOf s := by
  induction h generalizing word with
  | nil => rfl
  | newline s s' =>
    cases word with
    | nil => rfl
    | cons x word =>
      have hx : (x == '\n') = false := by
        rw [beq_eq_false_iff_ne]
        exact fun h => hword (h ▸ List.mem_cons_self)
      simp [List.isPrefixOf, hx]
  | cons c _ ih =>
    cases word with
    | nil => rfl
    | cons x word => simp [List.isPrefixOf, ih fun h => hword (List.mem_cons_of_mem _ h)]

end SameLine

/-! ## Scanners -/

/-- Reads from the front of a text; `none` is an error. -/
abbrev Scanner (α : Type) : Type := List Char → Option (α × List Char)

namespace Scanner

instance : Monad Scanner where
  pure a := fun s => some (a, s)
  bind p f := fun s => (p s).bind fun x => f x.1 x.2

def fail : Scanner α := fun _ => none

/-- What the rest looks like; nothing is read. -/
def look (f : List Char → β) : Scanner β := fun s => some (f s, s)

/-- The next character, which is not read. -/
def peek : Scanner (Option Char) := look List.head?

/-- Whether the rest begins with this word. -/
def looking (word : List Char) : Scanner Bool := look word.isPrefixOf

/-- A character of this kind. -/
def satisfy (p : Char → Bool) : Scanner Char
  | [] => none
  | c :: s => if p c then some (c, s) else none

/-- This character. -/
def char (c : Char) : Scanner Char := satisfy (· = c)

/-- The longest run of characters of this kind. -/
def many (p : Char → Bool) : Scanner (List Char) := fun s => some (s.takeWhile p, s.dropWhile p)

/-- At most so many rounds, each of which reads something. -/
def iterate (round : ρ → Scanner (ρ ⊕ α)) : Nat → ρ → Scanner α
  | 0, _, _ => none
  | n + 1, b, s =>
    match round b s with
    | some (.inr a, r) => some (a, r)
    | some (.inl b', r) => if r.length < s.length then iterate round n b' r else none
    | none => none

/-- Rounds until one of them has the result. -/
def loop (round : ρ → Scanner (ρ ⊕ α)) (b : ρ) : Scanner α := fun s =>
  iterate round (s.length + 1) b s

theorem bind_eq_some_iff {p : Scanner α} {f : α → Scanner β} {s r : List Char} {b : β} :
    (p >>= f) s = some (b, r) ↔ ∃ a r₁, p s = some (a, r₁) ∧ f a r₁ = some (b, r) := by
  refine Option.bind_eq_some_iff.trans ⟨?_, ?_⟩
  · rintro ⟨⟨a, r₁⟩, hp, hf⟩
    exact ⟨a, r₁, hp, hf⟩
  · rintro ⟨a, r₁, hp, hf⟩
    exact ⟨(a, r₁), hp, hf⟩

/-! ## Locality -/

/-- What the scanner has read, of these characters, it reads again before every rest with the same
first line. -/
def Local (ok : Char → Prop) (p : Scanner α) : Prop :=
  ∀ s a r, p s = some (a, r) → ∃ c, s = c ++ r ∧ (∀ x ∈ c, ok x) ∧
    ∀ r', SameLine r r' → p (c ++ r') = some (a, r')

namespace Local

variable {ok : Char → Prop} {p : Scanner α}

theorem pure (a : α) : Local ok (Pure.pure a : Scanner α) := by
  intro s a' r h
  obtain ⟨rfl, rfl⟩ := Prod.mk.inj (Option.some.inj h)
  exact ⟨[], rfl, by simp, fun r' _ => rfl⟩

theorem fail : Local ok (Scanner.fail : Scanner α) := by
  intro s a r h
  cases h

theorem bind {f : α → Scanner β} (hp : Local ok p) (hf : ∀ a, Local ok (f a)) :
    Local ok (p >>= f) := by
  intro s b r h
  obtain ⟨⟨a, r₁⟩, hpa, hfb⟩ := Option.bind_eq_some_iff.mp h
  obtain ⟨c, rfl, hc, hpc⟩ := hp s a r₁ hpa
  obtain ⟨c', rfl, hc', hfc⟩ := hf a r₁ b r hfb
  refine ⟨c ++ c', (List.append_assoc c c' r).symm, ?_, fun r' hr' => ?_⟩
  · exact fun x hx => (List.mem_append.mp hx).elim (hc x) (hc' x)
  · rw [List.append_assoc]
    exact Option.bind_eq_some_iff.mpr ⟨(a, c' ++ r'), hpc _ (hr'.append c'), hfc r' hr'⟩

theorem look {f : List Char → β} (hf : ∀ s s', SameLine s s' → f s' = f s) :
    Local ok (Scanner.look f) := by
  intro s b r h
  obtain ⟨rfl, rfl⟩ := Prod.mk.inj (Option.some.inj h)
  exact ⟨[], rfl, by simp, fun r' hr' => congrArg (fun b => some (b, r')) (hf _ _ hr')⟩

theorem peek : Local ok Scanner.peek := look fun _ _ h => h.head?

theorem looking {word : List Char} (h : '\n' ∉ word) : Local ok (Scanner.looking word) :=
  look fun _ _ hs => hs.isPrefixOf h

theorem satisfy {q : Char → Bool} (h : ∀ c, q c = true → ok c) : Local ok (Scanner.satisfy q) := by
  intro s a r hs
  cases s with
  | nil => cases hs
  | cons c s =>
    rw [Scanner.satisfy] at hs
    split at hs
    · next hq =>
      obtain ⟨rfl, rfl⟩ := Prod.mk.inj (Option.some.inj hs)
      refine ⟨[c], rfl, List.forall_mem_singleton.mpr (h c hq), fun r' _ => ?_⟩
      exact if_pos hq
    · cases hs

theorem char {c : Char} (h : ok c) : Local ok (Scanner.char c) :=
  satisfy fun _ hx => of_decide_eq_true hx ▸ h

theorem many {q : Char → Bool} (h : ∀ c, q c = true → ok c) : Local ok (Scanner.many q) := by
  intro s a r hs
  obtain ⟨rfl, rfl⟩ := Prod.mk.inj (Option.some.inj hs)
  refine ⟨s.takeWhile q, List.takeWhile_append_dropWhile.symm, ?_, fun r' hr' => ?_⟩
  · exact fun x hx => h x (List.mem_takeWhile_imp hx)
  · -- the run ends where it did
    have hhead : ∀ x ∈ r'.head?, q x = false := by
      intro x hx
      rw [hr'.head?] at hx
      have hnot := List.head?_dropWhile_not q s
      rw [Option.mem_def.mp hx] at hnot
      simpa using hnot
    have hr : r'.takeWhile q = [] ∧ r'.dropWhile q = r' := by
      cases r' with
      | nil => exact ⟨rfl, rfl⟩
      | cons x r' => simp [hhead x rfl]
    have hall : ∀ x ∈ s.takeWhile q, q x = true := fun x hx => List.mem_takeWhile_imp hx
    rw [Scanner.many, List.takeWhile_append_of_pos hall, List.dropWhile_append_of_pos hall, hr.1, hr.2,
      List.append_nil]

/-- What some rounds read they read again, when there are enough of them. -/
theorem iterate {round : ρ → Scanner (ρ ⊕ α)} (hround : ∀ b, Local ok (round b)) {n : Nat} {b : ρ}
    {s r : List Char} {a : α} (h : Scanner.iterate round n b s = some (a, r)) :
    ∃ c, s = c ++ r ∧ (∀ x ∈ c, ok x) ∧ ∀ m r', c.length < m → SameLine r r' →
      Scanner.iterate round m b (c ++ r') = some (a, r') := by
  induction n generalizing b s with
  | zero => cases h
  | succ n ih =>
    rw [Scanner.iterate] at h
    cases hs : round b s with
    | none =>
      rw [hs] at h
      cases h
    | some x =>
      obtain ⟨x, r₁⟩ := x
      obtain ⟨c, rfl, hc, hagain⟩ := hround b s x r₁ hs
      rw [hs] at h
      cases x with
      | inr a' =>
        obtain ⟨rfl, rfl⟩ := Prod.mk.inj (Option.some.inj h)
        refine ⟨c, rfl, hc, fun m r' hm hr' => ?_⟩
        obtain ⟨m, rfl⟩ := Nat.exists_eq_add_one_of_ne_zero (Nat.ne_zero_of_lt hm)
        rw [Scanner.iterate, hagain r' hr']
      | inl b' =>
        dsimp only at h
        split at h
        · next hless =>
          obtain ⟨c', rfl, hc', hrest⟩ := ih h
          refine ⟨c ++ c', (List.append_assoc c c' r).symm, ?_, fun m r' hm hr' => ?_⟩
          · exact fun x hx => (List.mem_append.mp hx).elim (hc x) (hc' x)
          · obtain ⟨m, rfl⟩ := Nat.exists_eq_add_one_of_ne_zero (Nat.ne_zero_of_lt hm)
            have hpos : 0 < c.length := by
              simp only [List.length_append] at hless
              omega
            rw [List.length_append] at hm
            rw [List.append_assoc, Scanner.iterate, hagain _ (hr'.append c')]
            dsimp only
            rw [if_pos (by simp only [List.length_append]; omega)]
            exact hrest m r' (by omega) hr'
        · cases h

theorem loop {round : ρ → Scanner (ρ ⊕ α)} (hround : ∀ b, Local ok (round b)) (b : ρ) :
    Local ok (Scanner.loop round b) := by
  intro s a r h
  obtain ⟨c, hs, hc, hagain⟩ := iterate hround h
  refine ⟨c, hs, hc, fun r' hr' => hagain _ r' ?_ hr'⟩
  rw [List.length_append]
  omega

end Local

end Scanner

end OpenHost
