import Mathlib.Data.Rat.Floor
import OpenHost.Library.SerialNumber

/-!
# SOA serials

`_next_serial`: each write of the configuration gets the second of the clock as its serial, or one more
than the last serial if that is ahead.  The larger of the two is reduced to 32 bits, the clock by itself
is not.
-/

namespace OpenHost.Dns

/-! ## The serial -/

/-- `2**31` -/
def halfSerials : ℤ := 0x80000000

/-- `int(time.time())` -/
def secondOf (time : ℚ) : ℤ := if 0 ≤ time then ⌊time⌋ else ⌈time⌉

/-- `_next_serial`, in a second of the clock. -/
def nextSerial (serial second : ℤ) : ℤ := max (serial + 1) second % (2 * halfSerials)

/-- The last write: its serial and the second it was made in. -/
structure SerialWrite where
  serial : ℤ
  second : ℤ

/-- The write of a configuration, at a time of the clock. -/
def writeAt (serial : ℤ) (time : ℚ) : SerialWrite :=
  ⟨nextSerial serial (secondOf time), secondOf time⟩

/-- The writes at these times, the first made with `_serial` at `serial`. -/
def writesFrom (serial : ℤ) : List ℚ → List SerialWrite
  | [] => []
  | time :: times => writeAt serial time :: writesFrom (writeAt serial time).serial times

/-- The clock never goes back, and goes on by less than `2**31` seconds. -/
def SteadyClock (times : List ℚ) : Prop :=
  times.IsChain fun a b => a ≤ b ∧ b < a + ((halfSerials : ℤ) : ℚ)

/-- The next write, in this second, gets a newer serial: the clock has not caught up with the last
serial; or it has, and that serial had not been reduced; or it had been, because the clock is past
`2**32`, and this is a later second; or it had been by counting, and the clock, reduced, is in the first
half. -/
def SerialWrite.Fresh (w : SerialWrite) (second : ℤ) : Prop :=
  second ≤ w.serial ∨
  w.second ≤ w.serial ∧ second < w.serial + halfSerials ∨
  2 * halfSerials ≤ w.second ∧ w.second < second ∧ second < w.second + halfSerials ∨
  w.serial < w.second ∧ w.second < 2 * halfSerials ∧ 0 < second % (2 * halfSerials) ∧
    second % (2 * halfSerials) < halfSerials

/-! ## The clock -/

theorem secondOf_mono {a b : ℚ} (h : a ≤ b) : secondOf a ≤ secondOf b := by
  unfold secondOf
  by_cases ha : 0 ≤ a
  · rw [if_pos ha, if_pos (ha.trans h)]
    exact Int.floor_le_floor h
  · rw [if_neg ha]
    by_cases hb : 0 ≤ b
    · rw [if_pos hb]
      exact (Int.ceil_le.mpr (by simpa using (not_le.mp ha).le)).trans (Int.floor_nonneg.mpr hb)
    · rw [if_neg hb]
      exact Int.ceil_le_ceil h

theorem secondOf_le_add {a b : ℚ} (n : ℤ) (hn : 0 ≤ n) (h : b < a + n) :
    secondOf b ≤ secondOf a + n := by
  unfold secondOf
  by_cases hb : 0 ≤ b
  · have hfloor : ⌊b⌋ ≤ ⌊a⌋ + n := by
      rw [← Int.floor_add_intCast]
      exact Int.floor_le_floor h.le
    rw [if_pos hb]
    split
    · exact hfloor
    · exact hfloor.trans (by linarith [Int.floor_le_ceil a])
  · have hceil : ⌈b⌉ ≤ ⌈a⌉ + n := by
      rw [← Int.ceil_add_intCast]
      exact Int.ceil_le_ceil h.le
    rw [if_neg hb]
    split
    · next ha =>
      have hneg : ⌈b⌉ ≤ 0 := Int.ceil_le.mpr (by simpa using (not_le.mp hb).le)
      linarith [Int.floor_nonneg.mpr ha]
    · exact hceil

/-! ## Writes -/

/-- What holds of every write: the serial has 32 bits, and it is not behind the second, unless it has
been reduced. -/
structure SerialWrite.Shape (w : SerialWrite) : Prop where
  nonneg : 0 ≤ w.serial
  lt : w.serial < 2 * halfSerials
  reduced : w.second ≤ w.serial ∨
    2 * halfSerials ≤ w.second ∧ w.serial = w.second % (2 * halfSerials) ∨
    w.second < 2 * halfSerials ∧ w.serial = 0

theorem shape_writeAt {serial : ℤ} (h : 0 ≤ serial) (h' : serial < 2 * halfSerials) (time : ℚ) :
    (writeAt serial time).Shape := by
  have hpos : 0 < 2 * halfSerials := by decide
  unfold writeAt nextSerial
  generalize secondOf time = second
  refine ⟨Int.emod_nonneg _ hpos.ne', Int.emod_lt_of_pos _ hpos, ?_⟩
  dsimp only
  rcases le_total second (serial + 1) with hle | hle
  · -- counted on, and reduced to 0 after the last number
    rw [max_eq_left hle]
    unfold halfSerials at *
    omega
  · rw [max_eq_right hle]
    unfold halfSerials at *
    omega

/-- One more write gets a newer serial exactly if it is fresh. -/
theorem less_nextSerial_iff {w : SerialWrite} (h : w.Shape) {second : ℤ} (hle : w.second ≤ second)
    (hadvance : second ≤ w.second + halfSerials) :
    SerialNumber.Less halfSerials w.serial (nextSerial w.serial second) ↔ w.Fresh second := by
  obtain ⟨hnonneg, hlt, hreduced⟩ := h
  rw [nextSerial, SerialNumber.less_emod_iff hnonneg hlt]
  unfold SerialWrite.Fresh
  rcases le_total second (w.serial + 1) with hmax | hmax
  · rw [max_eq_left hmax]
    unfold halfSerials at *
    omega
  · rw [max_eq_right hmax]
    unfold halfSerials at *
    omega

theorem shape_of_mem_writesFrom {times : List ℚ} {serial : ℤ} (h : 0 ≤ serial)
    (h' : serial < 2 * halfSerials) {w : SerialWrite} (hw : w ∈ writesFrom serial times) : w.Shape := by
  induction times generalizing serial with
  | nil => simp [writesFrom] at hw
  | cons time times ih =>
    have hshape := shape_writeAt h h' time
    rcases List.mem_cons.mp hw with rfl | hw
    · exact hshape
    · exact ih hshape.nonneg hshape.lt hw

/-- For every sequence of writes with a steady clock: each serial has 32 bits, and each is newer than the
one before exactly if each write is fresh after the one before. -/
theorem serial_newer_iff {serial : ℤ} (h : 0 ≤ serial) (h' : serial < 2 * halfSerials)
    {times : List ℚ} (hclock : SteadyClock times) :
    (∀ w ∈ writesFrom serial times, 0 ≤ w.serial ∧ w.serial < 2 * halfSerials) ∧
      ((writesFrom serial times).IsChain
          (fun w w' => SerialNumber.Less halfSerials w.serial w'.serial) ↔
        (writesFrom serial times).IsChain fun w w' => w.Fresh w'.second) := by
  refine ⟨fun w hw => ?_, ?_⟩
  · have hshape := shape_of_mem_writesFrom h h' hw
    exact ⟨hshape.nonneg, hshape.lt⟩
  · induction times generalizing serial with
    | nil => simp [writesFrom]
    | cons time times ih =>
      have hshape := shape_writeAt h h' time
      cases times with
      | nil => simp [writesFrom]
      | cons time' times =>
        have hrest := ih hshape.nonneg hshape.lt (List.isChain_cons_cons.mp hclock).2
        -- the second write is made with the serial of the first
        obtain ⟨hle, hlt⟩ := (List.isChain_cons_cons.mp hclock).1
        have hstep := less_nextSerial_iff hshape (secondOf_mono hle)
          (secondOf_le_add halfSerials (by decide) hlt)
        simp only [writesFrom, List.isChain_cons_cons] at hrest ⊢
        exact and_congr hstep hrest

theorem serial_newer_counted :
    (∀ w ∈ writesFrom 0 [1700000000, 1700000000],
        0 ≤ w.serial ∧ w.serial < 2 * halfSerials) ∧
      ((writesFrom 0 [1700000000, 1700000000]).IsChain
          (fun w w' => SerialNumber.Less halfSerials w.serial w'.serial) ↔
        (writesFrom 0 [1700000000, 1700000000]).IsChain fun w w' => w.Fresh w'.second) :=
  serial_newer_iff (by decide) (by decide)
    (by norm_num [SteadyClock, halfSerials])

/-- Two writes in a second past `2**32`: the clock is ahead of the reduced serial, and gives it again. -/
theorem serial_not_newer :
    SteadyClock [4294967301, 4294967301] ∧
      (writesFrom 0 [4294967301, 4294967301]).map SerialWrite.serial = [5, 5] ∧
      ¬ (writesFrom 0 [4294967301, 4294967301]).IsChain
        fun w w' => SerialNumber.Less halfSerials w.serial w'.serial := by
  have hsecond : secondOf 4294967301 = 4294967301 := by
    rw [secondOf, if_pos (by norm_num)]
    exact Int.floor_intCast 4294967301
  refine ⟨by norm_num [SteadyClock, halfSerials], ?_, ?_⟩
  · simp [writesFrom, writeAt, nextSerial, hsecond, halfSerials]
  · simp [writesFrom, writeAt, nextSerial, hsecond, halfSerials, SerialNumber.Less]

end OpenHost.Dns
