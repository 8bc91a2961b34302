import Mathlib.Data.Rat.Defs
import Mathlib.Algebra.Order.Ring.Rat
import OpenHost.Library.Hysteresis

/-!
# The memory guard

`core/memory_guard.py`: an app that nears its memory limit is reported once, and again only after its
usage has fallen well below the limit.
-/

namespace OpenHost.Monitoring

open Hysteresis (Trigger)

/-! ## Samples -/

/-- A `float` as `podman stats` reports it. -/
inductive Percent where
  | nan
  | negInf
  | posInf
  | finite (q : ℚ)
  deriving DecidableEq, Repr

/-- `percent < bound` -/
def Percent.lt (bound : ℚ) : Percent → Bool
  | nan | posInf => false
  | negInf => true
  | finite q => q < bound

/-- `percent >= bound` -/
def Percent.ge (bound : ℚ) : Percent → Bool
  | nan | negInf => false
  | posInf => true
  | finite q => bound ≤ q

/-- `_MEMORY_WARN_PERCENT` -/
def memoryWarnPercent : ℚ := 90

/-- `_MEMORY_CLEAR_PERCENT` -/
def memoryClearPercent : ℚ := 80

/-- A row of the apps with a container, and what `collect_app_resources` says about it. -/
structure Sample where
  appId : String
  name : String
  memoryMb : Option Int
  memoryPercent : Option Percent
  memoryUsageBytes : Option Int
  deriving DecidableEq, Repr

/-- The app is below the threshold that arms the guard again. -/
def Sample.isLow (s : Sample) : Bool := s.memoryPercent.any (·.lt memoryClearPercent)

/-- The app is at or above the threshold of a warning. -/
def Sample.isHigh (s : Sample) : Bool := s.memoryPercent.any (·.ge memoryWarnPercent)

/-! ## The guard -/

/-- What a warning says. -/
structure Warning where
  name : String
  percent : Percent
  memoryUsageBytes : Option Int
  memoryMb : Option Int
  deriving DecidableEq, Repr

/-- `_check_memory_pressure`: `notified` is `_pressure_notified`. -/
def checkMemoryPressure (notified : Finset String) (s : Sample) : Finset String × Option Warning :=
  match s.memoryPercent with
  -- if we know nothing, do nothing
  | none => (notified, none)
  | some percent =>
    if percent.lt memoryClearPercent = true then (notified.erase s.appId, none)
    else if percent.ge memoryWarnPercent = true ∧ s.appId ∉ notified then
      (insert s.appId notified, some ⟨s.name, percent, s.memoryUsageBytes, s.memoryMb⟩)
    else (notified, none)

/-- `_pressure_notified` of a guard that has seen these samples. -/
def notifiedAfter (samples : List Sample) : Finset String :=
  samples.foldl (fun notified s => (checkMemoryPressure notified s).1) ∅

/-- The warning at a sample, for a guard that has seen others before. -/
def warningAt (before : List Sample) (s : Sample) : Option Warning :=
  (checkMemoryPressure (notifiedAfter before) s).2

/-! ## It is a trigger -/

theorem Percent.not_ge_of_lt {percent : Percent} (h : percent.lt memoryClearPercent = true) :
    percent.ge memoryWarnPercent = false := by
  cases percent with
  | nan => rfl
  | negInf => rfl
  | posInf => cases h
  | finite q =>
    have hlt : q < 80 := of_decide_eq_true h
    exact decide_eq_false fun hle : (90 : ℚ) ≤ q => absurd (hle.trans_lt hlt) (by decide)

/-- The guard as a trigger for each app. -/
def pressure : Trigger Sample String where
  key := Sample.appId
  low := Sample.isLow
  high := Sample.isHigh
  apart s h := by
    unfold Sample.isLow at h
    unfold Sample.isHigh
    cases hpercent : s.memoryPercent with
    | none => rfl
    | some percent =>
      rw [hpercent] at h
      exact Percent.not_ge_of_lt h

theorem isLow_of_some {s : Sample} {percent : Percent} (h : s.memoryPercent = some percent) :
    s.isLow = percent.lt memoryClearPercent := by
  rw [Sample.isLow, h]
  rfl

theorem isHigh_of_some {s : Sample} {percent : Percent} (h : s.memoryPercent = some percent) :
    s.isHigh = percent.ge memoryWarnPercent := by
  rw [Sample.isHigh, h]
  rfl

theorem isLow_of_none {s : Sample} (h : s.memoryPercent = none) : s.isLow = false := by
  rw [Sample.isLow, h]
  rfl

theorem isHigh_of_none {s : Sample} (h : s.memoryPercent = none) : s.isHigh = false := by
  rw [Sample.isHigh, h]
  rfl

theorem checkMemoryPressure_fst (notified : Finset String) (s : Sample) :
    (checkMemoryPressure notified s).1 = pressure.next notified s := by
  change _ = if s.isLow = true then notified.erase s.appId
    else if s.isHigh = true then insert s.appId notified else notified
  unfold checkMemoryPressure
  cases hpercent : s.memoryPercent with
  | none => simp [isLow_of_none hpercent, isHigh_of_none hpercent]
  | some percent =>
    rw [isLow_of_some hpercent, isHigh_of_some hpercent]
    by_cases hlow : percent.lt memoryClearPercent = true
    · simp [hlow]
    · by_cases hhigh : percent.ge memoryWarnPercent = true
      · by_cases hmem : s.appId ∈ notified <;> simp [hlow, hhigh, hmem]
      · simp [hlow, hhigh]

theorem checkMemoryPressure_snd (notified : Finset String) (s : Sample) :
    (checkMemoryPressure notified s).2.isSome = true ↔ pressure.Fires notified s := by
  change _ ↔ s.isHigh = true ∧ s.appId ∉ notified
  unfold checkMemoryPressure
  cases hpercent : s.memoryPercent with
  | none => simp [isHigh_of_none hpercent]
  | some percent =>
    rw [isHigh_of_some hpercent]
    by_cases hlow : percent.lt memoryClearPercent = true
    · simp [hlow, Percent.not_ge_of_lt hlow]
    · by_cases hhigh : percent.ge memoryWarnPercent = true
      · by_cases hmem : s.appId ∈ notified <;> simp [hlow, hhigh, hmem]
      · simp [hlow, hhigh]

theorem notifiedAfter_eq (samples : List Sample) : notifiedAfter samples = pressure.after samples := by
  unfold notifiedAfter Trigger.after
  congr 1
  funext notified s
  exact checkMemoryPressure_fst notified s

theorem warningAt_isSome_iff (before : List Sample) (s : Sample) :
    (warningAt before s).isSome = true ↔
      s.isHigh = true ∧ pressure.Armed before s.appId := by
  unfold warningAt
  rw [checkMemoryPressure_snd, notifiedAfter_eq, Trigger.fires_iff]
  rfl

/-! ## Over whole runs -/

/-- Between two warnings for an app it was below the lower threshold; the first sample at the upper
threshold since then, or since the start, warns; and a missing sample changes nothing. -/
theorem warnings_of_samples (before : List Sample) (s : Sample) :
    (∀ earlier s' between, before = earlier ++ s' :: between → s'.appId = s.appId →
        (warningAt earlier s').isSome = true → (warningAt before s).isSome = true →
        ∃ low ∈ between, low.appId = s.appId ∧ low.isLow = true) ∧
      (s.isHigh = true →
        (∀ earlier s' between, before = earlier ++ s' :: between → s'.appId = s.appId →
          s'.isHigh = true → ∃ low ∈ between, low.appId = s.appId ∧ low.isLow = true) →
        (warningAt before s).isSome = true) ∧
      (s.memoryPercent = none →
        warningAt before s = none ∧ notifiedAfter (before ++ [s]) = notifiedAfter before) := by
  refine ⟨?_, ?_, ?_⟩
  · rintro earlier s' between rfl happ hfirst hsecond
    rw [warningAt_isSome_iff] at hfirst hsecond
    exact hsecond.2 earlier s' between rfl happ hfirst.1
  · intro hhigh harmed
    exact (warningAt_isSome_iff before s).mpr ⟨hhigh, harmed⟩
  · intro hmissing
    have hcheck : checkMemoryPressure (notifiedAfter before) s = (notifiedAfter before, none) := by
      unfold checkMemoryPressure
      rw [hmissing]
    refine ⟨?_, ?_⟩
    · rw [warningAt, hcheck]
    · rw [notifiedAfter, List.foldl_append, ← notifiedAfter, List.foldl_cons, hcheck]
      rfl

end OpenHost.Monitoring
