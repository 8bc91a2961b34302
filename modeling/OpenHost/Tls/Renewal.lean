import OpenHost.Domains.State
import OpenHost.Library.Runs
import OpenHost.Tls.CertFiles

/-!
# The renewal of certificates

One cycle of `renew_cert_if_needed`, and the cycles that `start_renewal_task` runs one after the other.
A cycle is told what it meets: the status of each certificate when its turn comes, what becomes of each
acquisition, and whether Caddy reloads.  What a cycle does is the list of its events.

What Caddy still has to load is written down nowhere.  A cycle reloads it only if it has installed
something itself, so a pair whose reload failed is not followed by another one until the next renewal.

The column `cert_status`, which only the dashboard shows, is left out.
-/

namespace OpenHost.Tls

open Domains (Domain)

/-! ## A cycle -/

/-- A domain, with the status of its certificate when its turn comes and what becomes of an
acquisition. -/
structure Turn where
  domain : Domain
  status : CertStatus
  acquired : Bool
  deriving DecidableEq

/-- What a cycle meets. -/
structure Cycle where
  /-- `primary_domain_or_none` -/
  primary : Option Turn
  /-- `effective_domains` -/
  domains : List Turn
  /-- What becomes of `reload_caddy`. -/
  reloads : Bool
  deriving DecidableEq

inductive RenewalEvent where
  | attempted (name : String)
  | installed (name : String)
  | reloaded
  deriving DecidableEq, Repr

/-- The events of a cycle and what it returns; `none` where it raises. -/
structure Renewal where
  events : List RenewalEvent
  returned : Option Bool
  deriving DecidableEq

/-- `domain.tls` and `status != CertStatus.OK` -/
def Turn.due (t : Turn) : Bool := t.domain.tls && t.status ≠ .ok

/-- The name that the certificate is for. -/
def Turn.name (t : Turn) : String := t.domain.nameNoPort

/-- `acquire_cert_for_domain`, or `provision_cert` -/
def Turn.acquire (t : Turn) : List RenewalEvent :=
  .attempted t.name :: if t.acquired then [.installed t.name] else []

/-- The loop over the domains that are not the primary one; an acquisition that raises is passed
over. -/
def renewAliases (primaryNoPort : Option String) : Bool → List Turn → List RenewalEvent × Bool
  | renewed, [] => ([], renewed)
  | renewed, t :: ts =>
      if !t.due || primaryNoPort = some t.name then renewAliases primaryNoPort renewed ts
      else
        let rest := renewAliases primaryNoPort (renewed || t.acquired) ts
        (t.acquire ++ rest.1, rest.2)

/-- The second part of the cycle, after the primary domain. -/
def Cycle.finish (c : Cycle) (events : List RenewalEvent) (renewed : Bool) : Renewal :=
  let aliases := renewAliases (c.primary.map Turn.name) renewed c.domains
  if aliases.2 then
    if c.reloads then ⟨events ++ aliases.1 ++ [.reloaded], some true⟩
    else ⟨events ++ aliases.1, none⟩
  else ⟨events ++ aliases.1, some false⟩

/-- `renew_cert_if_needed` -/
def renewCertIfNeeded (c : Cycle) : Renewal :=
  match c.primary with
  | none => c.finish [] false
  | some primary =>
      if primary.due then
        if primary.acquired then c.finish primary.acquire true
        -- a failure of the primary propagates
        else ⟨primary.acquire, none⟩
      else c.finish [] false

/-! ## What a cycle attempts -/

/-- The turns that the loop does not pass over. -/
def dueAliases (primaryNoPort : Option String) (ts : List Turn) : List Turn :=
  ts.filter fun t => primaryNoPort ≠ some t.name && t.due

/-- The aliases that are due. -/
def Cycle.dueAliases (c : Cycle) : List Turn :=
  Tls.dueAliases (c.primary.map Turn.name) c.domains

/-- The primary is due, and its acquisition fails. -/
def Cycle.PrimaryFails (c : Cycle) : Prop :=
  ∃ p, c.primary = some p ∧ p.due = true ∧ p.acquired = false

/-- A pair is installed, of the primary or of an alias. -/
def Cycle.Renews (c : Cycle) : Prop :=
  (∃ p, c.primary = some p ∧ p.due = true ∧ p.acquired = true) ∨
    ∃ t ∈ c.dueAliases, t.acquired = true

/-- The names that the events attempt, in order. -/
def attempts : List RenewalEvent → List String
  | [] => []
  | .attempted name :: es => name :: attempts es
  | _ :: es => attempts es

/-- Every pair that was installed has been followed by a reload. -/
def Served (es : List RenewalEvent) : Prop :=
  ∀ pre name post, es = pre ++ .installed name :: post → .reloaded ∈ post

/-- No pair is installed. -/
def NoInstall (es : List RenewalEvent) : Prop := ∀ name, .installed name ∉ es

@[simp] theorem attempts_append (es es' : List RenewalEvent) :
    attempts (es ++ es') = attempts es ++ attempts es' := by
  induction es with
  | nil => rfl
  | cons e es ih =>
    cases e with
    | attempted name => exact congrArg (name :: ·) ih
    | installed name => exact ih
    | reloaded => exact ih

@[simp] theorem attempts_acquire (t : Turn) : attempts t.acquire = [t.name] := by
  unfold Turn.acquire
  split <;> rfl

theorem renewAliases_skip {primaryNoPort : Option String} {renewed : Bool} {t : Turn} {ts : List Turn}
    (h : t.due = false ∨ primaryNoPort = some t.name) :
    renewAliases primaryNoPort renewed (t :: ts) = renewAliases primaryNoPort renewed ts := by
  rw [renewAliases, if_pos]
  rcases h with h | h
  · rw [h]
    rfl
  · rw [decide_eq_true h, Bool.or_true]

theorem renewAliases_due {primaryNoPort : Option String} {renewed : Bool} {t : Turn} {ts : List Turn}
    (hdue : t.due = true) (halias : primaryNoPort ≠ some t.name) :
    renewAliases primaryNoPort renewed (t :: ts) =
      (t.acquire ++ (renewAliases primaryNoPort (renewed || t.acquired) ts).1,
        (renewAliases primaryNoPort (renewed || t.acquired) ts).2) := by
  rw [renewAliases, if_neg]
  rw [hdue, decide_eq_false halias]
  exact Bool.false_ne_true

theorem dueAliases_skip {primaryNoPort : Option String} {t : Turn} {ts : List Turn}
    (h : t.due = false ∨ primaryNoPort = some t.name) :
    dueAliases primaryNoPort (t :: ts) = dueAliases primaryNoPort ts := by
  apply List.filter_cons_of_neg
  rcases h with h | h
  · simp [h]
  · simp [h]

theorem dueAliases_due {primaryNoPort : Option String} {t : Turn} {ts : List Turn}
    (hdue : t.due = true) (halias : primaryNoPort ≠ some t.name) :
    dueAliases primaryNoPort (t :: ts) = t :: dueAliases primaryNoPort ts := by
  apply List.filter_cons_of_pos
  simp [hdue, halias]

/-- A turn is passed over, or it is that of an alias that is due. -/
theorem skip_or_due (primaryNoPort : Option String) (t : Turn) :
    (t.due = false ∨ primaryNoPort = some t.name) ∨
      t.due = true ∧ primaryNoPort ≠ some t.name := by
  by_cases hprimary : primaryNoPort = some t.name
  · exact Or.inl (Or.inr hprimary)
  · cases hdue : t.due with
    | false => exact Or.inl (Or.inl rfl)
    | true => exact Or.inr ⟨rfl, hprimary⟩

/-- The loop attempts every alias that is due, in order. -/
theorem attempts_renewAliases (primaryNoPort : Option String) (renewed : Bool) (ts : List Turn) :
    attempts (renewAliases primaryNoPort renewed ts).1 =
      (dueAliases primaryNoPort ts).map Turn.name := by
  induction ts generalizing renewed with
  | nil => rfl
  | cons t ts ih =>
    rcases skip_or_due primaryNoPort t with hskip | ⟨hdue, halias⟩
    · rw [renewAliases_skip hskip, dueAliases_skip hskip, ih]
    · rw [renewAliases_due hdue halias, dueAliases_due hdue halias, attempts_append,
        attempts_acquire, ih]
      rfl

/-- The flag of the loop says whether something has been installed. -/
theorem renewAliases_snd (primaryNoPort : Option String) (renewed : Bool) (ts : List Turn) :
    (renewAliases primaryNoPort renewed ts).2 = true ↔
      renewed = true ∨ ∃ t ∈ dueAliases primaryNoPort ts, t.acquired = true := by
  induction ts generalizing renewed with
  | nil => simp [renewAliases, dueAliases]
  | cons t ts ih =>
    rcases skip_or_due primaryNoPort t with hskip | ⟨hdue, halias⟩
    · rw [renewAliases_skip hskip, dueAliases_skip hskip, ih]
    · rw [renewAliases_due hdue halias, dueAliases_due hdue halias, ih, Bool.or_eq_true, or_assoc]
      simp only [List.mem_cons, exists_eq_or_imp]

theorem noInstall_renewAliases {primaryNoPort : Option String} {renewed : Bool} {ts : List Turn}
    (h : ∀ t ∈ dueAliases primaryNoPort ts, t.acquired = false) :
    NoInstall (renewAliases primaryNoPort renewed ts).1 := by
  induction ts generalizing renewed with
  | nil => exact fun name hmem => (List.not_mem_nil hmem).elim
  | cons t ts ih =>
    rcases skip_or_due primaryNoPort t with hskip | ⟨hdue, halias⟩
    · rw [dueAliases_skip hskip] at h
      rw [renewAliases_skip hskip]
      exact ih h
    · rw [dueAliases_due hdue halias, List.forall_mem_cons] at h
      rw [renewAliases_due hdue halias]
      intro name hmem
      rcases List.mem_append.mp hmem with hmem | hmem
      · simp [Turn.acquire, h.1] at hmem
      · exact ih h.2 name hmem

theorem not_reloaded_acquire (t : Turn) : .reloaded ∉ t.acquire := by
  unfold Turn.acquire
  split <;> simp

theorem not_reloaded_renewAliases (primaryNoPort : Option String) (renewed : Bool) (ts : List Turn) :
    .reloaded ∉ (renewAliases primaryNoPort renewed ts).1 := by
  induction ts generalizing renewed with
  | nil => exact List.not_mem_nil
  | cons t ts ih =>
    rcases skip_or_due primaryNoPort t with hskip | ⟨hdue, halias⟩
    · rw [renewAliases_skip hskip]
      exact ih renewed
    · rw [renewAliases_due hdue halias, List.mem_append, not_or]
      exact ⟨not_reloaded_acquire t, ih _⟩

/-! ## What a cycle leaves to be reloaded -/

section

variable {c : Cycle} {es es' : List RenewalEvent}

theorem served_append_reloaded (es : List RenewalEvent) : Served (es ++ [.reloaded]) := by
  intro pre name post h
  -- the reload is the last event, so it does not stand before the installation
  have hlast := congrArg List.getLast? h
  rw [List.getLast?_concat, List.getLast?_append] at hlast
  cases post with
  | nil => simp at hlast
  | cons e post =>
    rw [List.getLast?_cons_cons] at hlast
    have hmem : (e :: post).getLast? = some .reloaded := by
      cases hpost : (e :: post).getLast? with
      | none => simp at hpost
      | some e' =>
        rw [hpost] at hlast
        simpa using hlast.symm
    exact List.mem_of_getLast? hmem

/-- Events that neither install nor reload change nothing. -/
theorem served_append_iff (hinstall : NoInstall es') (hreload : .reloaded ∉ es') :
    Served (es ++ es') ↔ Served es := by
  constructor
  · intro h pre name post heq
    have hmem := h pre name (post ++ es') (by rw [heq, List.append_assoc, List.cons_append])
    exact (List.mem_append.mp hmem).resolve_right hreload
  · intro h pre name post heq
    rcases List.append_eq_append_iff.mp heq with ⟨as, hpre, hes'⟩ | ⟨bs, hes, hpost⟩
    · exact absurd (hes' ▸ List.mem_append_right as List.mem_cons_self) (hinstall name)
    · cases bs with
      | nil =>
        rw [List.nil_append] at hpost
        exact absurd (hpost ▸ List.mem_cons_self) (hinstall name)
      | cons b bs =>
        obtain ⟨rfl, rfl⟩ := List.cons.inj hpost
        exact List.mem_append_left es' (h pre name bs hes)

/-! ### The cycle as a whole -/

theorem renewCertIfNeeded_notDue (h : ∀ p, c.primary = some p → p.due = false) :
    renewCertIfNeeded c = c.finish [] false := by
  rw [renewCertIfNeeded]
  split
  · rfl
  · rename_i p hp
    rw [h p hp, if_neg Bool.false_ne_true]

theorem renewCertIfNeeded_due {p : Turn} (hp : c.primary = some p) (hdue : p.due = true) :
    renewCertIfNeeded c = if p.acquired then c.finish p.acquire true else ⟨p.acquire, none⟩ := by
  rw [renewCertIfNeeded, hp]
  dsimp only
  rw [if_pos hdue]

/-- The primary is not due, or it is renewed, or its acquisition fails. -/
theorem primary_cases (c : Cycle) :
    (∀ p, c.primary = some p → p.due = false) ∨
      (∃ p, c.primary = some p ∧ p.due = true ∧ p.acquired = true) ∨ c.PrimaryFails := by
  cases hp : c.primary with
  | none => exact Or.inl (by simp)
  | some p =>
    cases hdue : p.due with
    | false => exact Or.inl fun q hq => Option.some.inj hq ▸ hdue
    | true =>
      cases hacquired : p.acquired with
      | true => exact Or.inr (Or.inl ⟨p, rfl, hdue, hacquired⟩)
      | false => exact Or.inr (Or.inr ⟨p, hp, hdue, hacquired⟩)

/-- How a cycle ends. -/
inductive Ends (c : Cycle) : Renewal → Prop where
  | raised (es : List RenewalEvent) : Ends c ⟨es, none⟩
  | reloaded (es : List RenewalEvent) (hrenews : c.Renews) : Ends c ⟨es ++ [.reloaded], some true⟩
  | idle (es : List RenewalEvent) (hrenews : ¬ c.Renews) (hinstall : NoInstall es)
      (hreload : .reloaded ∉ es) : Ends c ⟨es, some false⟩

theorem ends_of_finish (c : Cycle) (es : List RenewalEvent) (renewed : Bool)
    (hprimary : renewed = true → ∃ p, c.primary = some p ∧ p.due = true ∧ p.acquired = true)
    (hidle : renewed = false → es = [] ∧ ∀ p, c.primary = some p → p.due = false) :
    Ends c (c.finish es renewed) := by
  unfold Cycle.finish
  dsimp only
  cases hrenewed : (renewAliases (c.primary.map Turn.name) renewed c.domains).2 with
  | true =>
    cases hreloads : c.reloads with
    | true => exact .reloaded _ (((renewAliases_snd _ _ _).mp hrenewed).imp hprimary id)
    | false => exact .raised _
  | false =>
    have hnot : ¬ (renewed = true ∨ ∃ t ∈ c.dueAliases, t.acquired = true) := by
      intro h
      rw [(renewAliases_snd _ _ _).mpr h] at hrenewed
      cases hrenewed
    rw [not_or] at hnot
    obtain ⟨rfl, hnotDue⟩ := hidle (Bool.eq_false_iff.mpr hnot.1)
    have hfailed : ∀ t ∈ c.dueAliases, t.acquired = false := by
      intro t ht
      rw [← Bool.not_eq_true]
      exact fun hacquired => hnot.2 ⟨t, ht, hacquired⟩
    refine .idle _ ?_ (noInstall_renewAliases hfailed) (not_reloaded_renewAliases _ _ _)
    rintro (⟨p, hp, hdue, -⟩ | haliases)
    · rw [hnotDue p hp] at hdue
      cases hdue
    · exact hnot.2 haliases

theorem ends_renewCertIfNeeded (c : Cycle) : Ends c (renewCertIfNeeded c) := by
  rcases primary_cases c with hprimary | ⟨p, hp, hdue, hacquired⟩ | ⟨p, hp, hdue, hacquired⟩
  · rw [renewCertIfNeeded_notDue hprimary]
    exact ends_of_finish c [] false (by simp) fun _ => ⟨rfl, hprimary⟩
  · rw [renewCertIfNeeded_due hp hdue, if_pos hacquired]
    exact ends_of_finish c p.acquire true (fun _ => ⟨p, hp, hdue, hacquired⟩) (by simp)
  · rw [renewCertIfNeeded_due hp hdue, hacquired, if_neg Bool.false_ne_true]
    exact .raised _

theorem attempts_finish (c : Cycle) (es : List RenewalEvent) (renewed : Bool) :
    attempts (c.finish es renewed).events = attempts es ++ c.dueAliases.map Turn.name := by
  unfold Cycle.finish
  dsimp only
  have haliases := attempts_renewAliases (c.primary.map Turn.name) renewed c.domains
  split
  · split
    · rw [attempts_append, attempts_append, haliases]
      exact List.append_nil _
    · rw [attempts_append, haliases]
      rfl
  · rw [attempts_append, haliases]
    rfl

/-- Where the primary does not fail, the cycle attempts it if it is due, and then every alias that is
due. -/
theorem attempts_renewCertIfNeeded (h : ¬ c.PrimaryFails) :
    attempts (renewCertIfNeeded c).events =
      (c.primary.filter Turn.due).toList.map Turn.name ++ c.dueAliases.map Turn.name := by
  rcases primary_cases c with hprimary | ⟨p, hp, hdue, hacquired⟩ | hfails
  · have hnone : c.primary.filter Turn.due = none := by
      rw [Option.filter_eq_none_iff]
      intro p hp
      rw [hprimary p hp]
      exact Bool.false_ne_true
    rw [renewCertIfNeeded_notDue hprimary, attempts_finish, hnone]
    rfl
  · rw [renewCertIfNeeded_due hp hdue, if_pos hacquired, attempts_finish, attempts_acquire, hp,
      Option.filter_some_pos hdue]
    rfl
  · exact absurd hfails h

end

/-! ## Cycle after cycle -/

/-- What the cycles have done so far, and whether the last one has returned. -/
structure Renewals where
  events : List RenewalEvent
  returned : Bool
  deriving DecidableEq

/-- One cycle of the loop of `start_renewal_task`, which goes on after a cycle that raises. -/
def Renewals.next (s : Renewals) (c : Cycle) : Renewals where
  events := s.events ++ (renewCertIfNeeded c).events
  returned := (renewCertIfNeeded c).returned.isSome

def renewalStep (s : Renewals) (c : Cycle) (s' : Renewals) : Prop := s.next c = s'

/-- Nothing waits for a reload when the cycle begins, or the cycle installs a pair itself, or it ends
with the failure of the primary. -/
def Covered (s : Renewals) (c : Cycle) : Prop := Served s.events ∨ c.Renews ∨ c.PrimaryFails

/-- A cycle that returns leaves nothing to be reloaded exactly if it is covered. -/
theorem served_next_iff {s : Renewals} {c : Cycle} (h : (s.next c).returned = true) :
    Served (s.next c).events ↔ Covered s c := by
  have hfails : ¬ c.PrimaryFails := by
    rintro ⟨p, hp, hdue, hacquired⟩
    rw [Renewals.next, renewCertIfNeeded_due hp hdue, hacquired] at h
    cases h
  unfold Renewals.next at h ⊢
  dsimp only at h ⊢
  cases hends : renewCertIfNeeded c with
  | mk es returned =>
    rw [hends] at h
    have hc := ends_renewCertIfNeeded c
    rw [hends] at hc
    cases hc with
    | raised => cases h
    | reloaded es hrenews =>
      refine iff_of_true ?_ (Or.inr (Or.inl hrenews))
      rw [← List.append_assoc]
      exact served_append_reloaded _
    | idle es hrenews hinstall hreload =>
      rw [served_append_iff hinstall hreload]
      exact ⟨Or.inl, fun hcovered => hcovered.resolve_right (not_or.mpr ⟨hrenews, hfails⟩)⟩

/-- A cycle whose primary does not fail attempts every alias that is due once, whatever becomes of the
others.  In a run whose cycles are all covered, what has been installed when a cycle returns has been
reloaded; a cycle that returns without being covered leaves a pair that is not. -/
theorem renewals_of_reaches (events : List RenewalEvent) (hstart : Served events) :
    (∀ c, ¬ c.PrimaryFails → attempts (renewCertIfNeeded c).events =
      (c.primary.filter Turn.due).toList.map Turn.name ++ c.dueAliases.map Turn.name) ∧
    (∀ s c, (s.next c).returned = true → (Served (s.next c).events ↔ Covered s c)) ∧
    ∀ s, Reach renewalStep Covered ⟨events, true⟩ s → s.returned = true → Served s.events := by
  refine ⟨fun c => attempts_renewCertIfNeeded, fun s c => served_next_iff, ?_⟩
  intro s hreach hreturned
  cases hreach with
  | refl => exact hstart
  | step _ hcovered hstep =>
    obtain rfl := hstep
    exact (served_next_iff hreturned).mpr hcovered

/-! ### Two cycles -/

/-- The alias `example.com` of a space without a primary domain. -/
def aliasTurn (status : CertStatus) : Turn := ⟨⟨"example.com", true, false⟩, status, true⟩

/-- The alias has no certificate, and gets one. -/
def firstCycle (reloads : Bool) : Cycle := ⟨none, [aliasTurn .missing], reloads⟩

/-- The next one finds the files that the first one has written. -/
def secondCycle : Cycle := ⟨none, [aliasTurn .ok], true⟩

theorem nameNoPort_alias : Domain.nameNoPort ⟨"example.com", true, false⟩ = "example.com" := by
  decide +kernel

theorem events_firstCycle : (renewCertIfNeeded (firstCycle false)).events =
    [.attempted "example.com", .installed "example.com"] := by
  simp [renewCertIfNeeded, firstCycle, Cycle.finish, renewAliases, aliasTurn, Turn.due, Turn.acquire,
    Turn.name, nameNoPort_alias]

/-- The reload that completes makes the alias served. -/
theorem renewals_of_reaches_first :
    attempts (renewCertIfNeeded (firstCycle true)).events = [(aliasTurn .missing).name] ∧
      Served (Renewals.next ⟨[], true⟩ (firstCycle true)).events := by
  have hstart : Served [] := fun pre name post h => by simp at h
  obtain ⟨hattempts, -, hruns⟩ := renewals_of_reaches [] hstart
  have hreach : Reach renewalStep Covered ⟨[], true⟩ (Renewals.next ⟨[], true⟩ (firstCycle true)) :=
    .step .refl (Or.inl hstart) rfl
  refine ⟨hattempts _ ?_, hruns _ hreach rfl⟩
  rintro ⟨p, hp, -⟩
  cases hp

/-- The reload of the first cycle fails; the second one finds every certificate in order and returns
without a reload. -/
theorem second_cycle_not_served :
    ¬ ∀ s, Reach renewalStep (fun _ _ => True) ⟨[], true⟩ s → s.returned = true →
      Served s.events := by
  intro h
  have hreach : Reach renewalStep (fun _ _ => True) ⟨[], true⟩
      ((Renewals.next ⟨[], true⟩ (firstCycle false)).next secondCycle) :=
    .step (.step .refl trivial rfl) trivial rfl
  have hserved := h _ hreach rfl
  -- the one pair that is installed is the last event of the run
  have hevents : ((Renewals.next ⟨[], true⟩ (firstCycle false)).next secondCycle).events =
      [.attempted "example.com"] ++ .installed "example.com" :: [] := by
    rw [Renewals.next, Renewals.next, events_firstCycle]
    rfl
  exact List.not_mem_nil (hserved _ _ _ hevents)

end OpenHost.Tls
