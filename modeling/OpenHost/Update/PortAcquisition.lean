import Mathlib.Algebra.Order.Field.Rat
import Mathlib.Tactic.Linarith
import OpenHost.Library.Traces

/-!
# Taking the ports during the downtime

`_acquire_ports_during_downtime` of the updater: the main service is probed again and again; once it has
been seen down, the updater tries to bind 443 and 80 at every turn, until it has what it needs, the
service is back, or it has waited for too long.
-/

namespace OpenHost.Update

/-! ## What the loop does, and what it is answered -/

/-- What the loop does to the world outside; a socket is known by its number. -/
inductive PortEvent where
  /-- `time.monotonic()` -/
  | reading (time : ℚ)
  /-- The condition of the loop was met. -/
  | iteration
  /-- A socket is opened, and tried to be bound to a port. -/
  | binding (sock port : ℕ)
  | closed (sock : ℕ)
  /-- `_compute_space_ready()` -/
  | probed (ready : Bool)
  deriving DecidableEq, Repr

/-- The answers to whatever a turn of the loop may ask: the clock at each place where it is read, the
result of each bind, and of the probe. -/
structure PortTurn where
  now : ℚ
  httpsBound : Bool
  httpBound : Bool
  ready : Bool
  /-- Where the downtime is first seen. -/
  downAt : ℚ
  /-- Where the deadline for binding is looked at. -/
  bindAt : ℚ
  /-- Where the wait for the downtime is looked at. -/
  waitAt : ℚ

/-- The variables of the loop, the number of the next socket, and what has been done. -/
structure Acquire where
  httpsSock : Option ℕ
  httpSock : Option ℕ
  downtimeSeen : Bool
  bindDeadline : Option ℚ
  nextSock : ℕ
  log : List PortEvent
  deriving DecidableEq, Repr

/-- `_MAX_LIFETIME_SECONDS` -/
def maxLifetimeSeconds : ℚ := 60 * 60

/-- `_BIND_WAIT_SECONDS` -/
def bindWaitSeconds : ℚ := 60

/-- `_DOWNTIME_WAIT_SECONDS` -/
def downtimeWaitSeconds : ℚ := 120

/-! ## The loop -/

def Acquire.note (a : Acquire) (event : PortEvent) : Acquire := { a with log := a.log ++ [event] }

/-- `_close` of one socket. -/
def Acquire.close (a : Acquire) : Option ℕ → Acquire
  | none => a
  | some sock => a.note (.closed sock)

/-- `_try_bind`: the socket, unless it could not be bound; then it is closed. -/
def Acquire.tryBind (a : Acquire) (port : ℕ) (bound : Bool) : Option ℕ × Acquire :=
  let opened := { a.note (.binding a.nextSock port) with nextSock := a.nextSock + 1 }
  if bound then (some a.nextSock, opened) else (none, opened.note (.closed a.nextSock))

/-- `if https_sock is None and ssl_ctx is not None: ..` -/
def Acquire.tryHttps (ssl : Bool) (t : PortTurn) (a : Acquire) : Acquire :=
  if a.httpsSock = none ∧ ssl then
    { (a.tryBind 443 t.httpsBound).2 with httpsSock := (a.tryBind 443 t.httpsBound).1 }
  else a

/-- `if http_sock is None: ..` -/
def Acquire.tryHttp (t : PortTurn) (a : Acquire) : Acquire :=
  if a.httpSock = none then
    { (a.tryBind 80 t.httpBound).2 with httpSock := (a.tryBind 80 t.httpBound).1 }
  else a

/-- What the function returns: the two sockets. -/
abbrev Sockets := Option ℕ × Option ℕ

/-- Both sockets are closed, and none is returned. -/
def Acquire.giveUp (a : Acquire) : Acquire × Option Sockets :=
  ((a.close a.httpsSock).close a.httpSock, some (none, none))

/-- The clock is read for the deadline for binding where there is one. -/
def Acquire.readDeadline (t : PortTurn) (a : Acquire) : Acquire :=
  if a.bindDeadline = none then a else a.note (.reading t.bindAt)

/-- The branches on the deadline for binding and on the wait for the downtime; the outcome is `none` where
the loop goes on. -/
def Acquire.checkWaits (start : ℚ) (t : PortTurn) (a : Acquire) : Acquire × Option Sockets :=
  let a := a.readDeadline t
  if ∃ deadline ∈ a.bindDeadline, t.bindAt > deadline then a.giveUp
  else if ¬ a.downtimeSeen then
    let a := a.note (.reading t.waitAt)
    if t.waitAt - start > downtimeWaitSeconds then (a, some (none, none)) else (a, none)
  else (a, none)

/-- The probe and the branches that follow it. -/
def Acquire.check (start : ℚ) (t : PortTurn) (a : Acquire) : Acquire × Option Sockets :=
  let a := a.note (.probed t.ready)
  if ¬ t.ready ∧ ¬ a.downtimeSeen then
    let a := a.note (.reading t.downAt)
    ({ a with downtimeSeen := true, bindDeadline := some (t.downAt + bindWaitSeconds) }, none)
  else if a.downtimeSeen ∧ t.ready then a.giveUp
  else a.checkWaits start t

/-- One turn of the loop. -/
def Acquire.turn (ssl : Bool) (start : ℚ) (t : PortTurn) (a : Acquire) : Acquire × Option Sockets :=
  let a := a.note (.reading t.now)
  if t.now < start + maxLifetimeSeconds then
    let a := a.note .iteration
    if a.downtimeSeen then
      let a := (a.tryHttps ssl t).tryHttp t
      if a.httpsSock ≠ none ∨ ¬ ssl ∧ a.httpSock ≠ none then (a, some (a.httpsSock, a.httpSock))
      else a.check start t
    else a.check start t
  else (a, some (a.httpsSock, a.httpSock))

/-- The loop, for a number of turns; the outcome is `none` when it is still running after them. -/
def Acquire.turns (ssl : Bool) (start : ℚ) : List PortTurn → Acquire → Acquire × Option Sockets
  | [], a => (a, none)
  | t :: ts, a =>
    match a.turn ssl start t with
    | (a, some sockets) => (a, some sockets)
    | (a, none) => a.turns ssl start ts

/-- `_acquire_ports_during_downtime`: from the first reading of the clock. -/
def acquirePorts (ssl : Bool) (start : ℚ) (ts : List PortTurn) : Acquire × Option Sockets :=
  Acquire.turns ssl start ts ⟨none, none, false, none, 0, [.reading start]⟩

/-! ## What holds of the log -/

/-- What comes before an event: a port is bound after the service has been seen down; a turn starts right
after a reading within the limit. -/
def PortRule (limit : ℚ) (before : List PortEvent) : PortEvent → Prop
  | .binding _ _ => .probed false ∈ before
  | .iteration => ∃ earlier time, before = earlier ++ [.reading time] ∧ time < limit
  | _ => True

/-- The service has been seen down, and later back up. -/
def BackUp (log : List PortEvent) : Prop :=
  List.Sublist [.probed false, .probed true] log

/-- One of the two sockets is this one. -/
def Holds (sockets : Sockets) (sock : ℕ) : Prop := sockets.1 = some sock ∨ sockets.2 = some sock

/-- Of the sockets that were opened, exactly these have not been closed. -/
def Kept (log : List PortEvent) (sockets : Sockets) : Prop :=
  ∀ sock port, .binding sock port ∈ log → (.closed sock ∈ log ↔ ¬ Holds sockets sock)

/-- The sockets of the loop. -/
def Acquire.sockets (a : Acquire) : Sockets := (a.httpsSock, a.httpSock)

/-- What holds while the loop is running. -/
structure Acquire.Waiting (limit : ℚ) (a : Acquire) : Prop where
  down : a.downtimeSeen = true ↔ .probed false ∈ a.log
  notBack : ¬ BackUp a.log
  /-- The next number is new. -/
  freshBinding : ∀ sock port, .binding sock port ∈ a.log → sock < a.nextSock
  freshClosed : ∀ sock, .closed sock ∈ a.log → sock < a.nextSock
  freshHeld : ∀ sock, Holds a.sockets sock → sock < a.nextSock
  kept : Kept a.log a.sockets
  idle : a.downtimeSeen = false → a.sockets = (none, none)
  rule : Throughout (PortRule limit) a.log

variable {limit : ℚ} {a a' : Acquire} {t : PortTurn} {ssl : Bool} {start : ℚ}

/-! ## The operations keep it -/

theorem backUp_concat {log : List PortEvent} {e : PortEvent} :
    BackUp (log ++ [e]) ↔ BackUp log ∨ .probed true = e ∧ .probed false ∈ log :=
  pair_sublist_concat

/-- An event that is no probe, no bind and no close changes nothing that matters. -/
theorem Acquire.Waiting.note (h : a.Waiting limit) {e : PortEvent} (hrule : PortRule limit a.log e)
    (hprobe : ∀ ready, e ≠ .probed ready) (hbinding : ∀ sock port, e ≠ .binding sock port)
    (hclosed : ∀ sock, e ≠ .closed sock) : (a.note e).Waiting limit where
  down := by simpa [Acquire.note, (hprobe false).symm] using h.down
  notBack := by simp [Acquire.note, backUp_concat, (hprobe true).symm, h.notBack]
  freshBinding := by simpa [Acquire.note, (hbinding _ _).symm] using h.freshBinding
  freshClosed := by simpa [Acquire.note, (hclosed _).symm] using h.freshClosed
  freshHeld := h.freshHeld
  kept := by simpa [Acquire.note, Acquire.sockets, Kept, (hbinding _ _).symm, (hclosed _).symm] using h.kept
  idle := h.idle
  rule := h.rule.concat hrule

/-- A new socket is opened, bound and kept. -/
theorem Acquire.Waiting.bound (h : a.Waiting limit) (hdown : a.downtimeSeen = true) (port : ℕ)
    (hlog : a'.log = a.log ++ [.binding a.nextSock port]) (hnext : a'.nextSock = a.nextSock + 1)
    (hseen : a'.downtimeSeen = true)
    (hheld : ∀ sock, Holds a'.sockets sock ↔ Holds a.sockets sock ∨ sock = a.nextSock) :
    a'.Waiting limit where
  down := by simp [hseen, hlog, h.down.mp hdown]
  notBack := by simp [hlog, backUp_concat, h.notBack]
  freshBinding := by
    intro sock port' hmem
    have := h.freshBinding sock port'
    grind
  freshClosed := by
    intro sock hmem
    have := h.freshClosed sock
    grind
  freshHeld := by
    intro sock hmem
    have := h.freshHeld sock
    grind
  kept := by
    intro sock port' hmem
    have hkept := h.kept sock port'
    have hnew := h.freshClosed sock
    grind
  idle := by simp [hseen]
  rule := by
    rw [hlog]
    exact h.rule.concat (h.down.mp hdown)

/-- A new socket is opened, cannot be bound, and is closed. -/
theorem Acquire.Waiting.refused (h : a.Waiting limit) (hdown : a.downtimeSeen = true) (port : ℕ)
    (hlog : a'.log = a.log ++ [.binding a.nextSock port] ++ [.closed a.nextSock])
    (hnext : a'.nextSock = a.nextSock + 1) (hseen : a'.downtimeSeen = true)
    (hheld : a'.sockets = a.sockets) : a'.Waiting limit where
  down := by simp [hseen, hlog, h.down.mp hdown]
  notBack := by
    rw [hlog, backUp_concat, backUp_concat]
    simp [h.notBack]
  freshBinding := by
    intro sock port' hmem
    have := h.freshBinding sock port'
    grind
  freshClosed := by
    intro sock hmem
    have := h.freshClosed sock
    grind
  freshHeld := by
    intro sock hmem
    have := h.freshHeld sock
    grind
  kept := by
    intro sock port' hmem
    have hkept := h.kept sock port'
    have hnew := h.freshHeld sock
    grind
  idle := by simp [hseen]
  rule := by
    rw [hlog]
    have hopened : Throughout (PortRule limit) (a.log ++ [.binding a.nextSock port]) :=
      h.rule.concat (h.down.mp hdown)
    exact hopened.concat trivial

theorem Acquire.Waiting.tryHttps (h : a.Waiting limit) (ssl : Bool) (t : PortTurn)
    (hdown : a.downtimeSeen = true) :
    (a.tryHttps ssl t).Waiting limit ∧ (a.tryHttps ssl t).downtimeSeen = true := by
  unfold Acquire.tryHttps
  split
  · next hnone =>
    refine ⟨?_, by cases t.httpsBound <;> exact hdown⟩
    cases hbound : t.httpsBound with
    | true =>
      refine h.bound hdown 443 rfl rfl hdown fun sock => ?_
      simp [Holds, Acquire.sockets, Acquire.tryBind, Acquire.note, hnone.1]
      tauto
    | false =>
      refine h.refused hdown 443 rfl rfl hdown ?_
      simp [Acquire.sockets, Acquire.tryBind, Acquire.note, hnone.1]
  · exact ⟨h, hdown⟩

theorem Acquire.Waiting.tryHttp (h : a.Waiting limit) (hdown : a.downtimeSeen = true) :
    (a.tryHttp t).Waiting limit ∧ (a.tryHttp t).downtimeSeen = true := by
  unfold Acquire.tryHttp
  split
  · next hnone =>
    refine ⟨?_, by cases t.httpBound <;> exact hdown⟩
    cases hbound : t.httpBound with
    | true =>
      refine h.bound hdown 80 rfl rfl hdown fun sock => ?_
      simp [Holds, Acquire.sockets, Acquire.tryBind, Acquire.note, hnone]
      tauto
    | false =>
      refine h.refused hdown 80 rfl rfl hdown ?_
      simp [Acquire.sockets, Acquire.tryBind, Acquire.note, hnone]
  · exact ⟨h, hdown⟩

/-! ## Ends -/

/-- What holds when the function has returned these sockets. -/
structure Acquire.Returned (limit : ℚ) (sockets : Sockets) (a : Acquire) : Prop where
  kept : Kept a.log sockets
  notBack : BackUp a.log → sockets = (none, none)
  rule : Throughout (PortRule limit) a.log

/-- The loop is running, or the function has returned. -/
def Acquire.Sound (limit : ℚ) : Acquire × Option Sockets → Prop
  | (a, none) => a.Waiting limit
  | (a, some sockets) => a.Returned limit sockets

theorem Acquire.Waiting.returned (h : a.Waiting limit) : a.Returned limit a.sockets :=
  ⟨h.kept, fun hback => absurd hback h.notBack, h.rule⟩

/-- Closing both sockets leaves none open. -/
theorem returned_giveUp (hkept : Kept a.log a.sockets) (hrule : Throughout (PortRule limit) a.log) :
    Acquire.Sound limit a.giveUp := by
  unfold Acquire.giveUp
  refine ⟨?_, fun _ => rfl, ?_⟩
  · intro sock port hmem
    have hsock := hkept sock port
    cases hhttps : a.httpsSock <;> cases hhttp : a.httpSock <;>
      simp_all [Acquire.close, Acquire.note, Holds, Acquire.sockets] <;> tauto
  · cases a.httpsSock <;> cases a.httpSock
    · exact hrule
    · exact hrule.concat trivial
    · exact hrule.concat trivial
    · next https http =>
      have hfirst : Throughout (PortRule limit) (a.log ++ [.closed https]) := hrule.concat trivial
      exact hfirst.concat trivial

theorem Acquire.Waiting.reading (h : a.Waiting limit) (time : ℚ) : (a.note (.reading time)).Waiting limit :=
  h.note trivial nofun nofun nofun

/-- The probe has seen the downtime for the first time. -/
theorem Acquire.Waiting.seen (h : a.Waiting limit) (time : ℚ) (deadline : Option ℚ) :
    Acquire.Waiting limit { (a.note (.probed false)).note (.reading time) with
      downtimeSeen := true, bindDeadline := deadline } where
  down := by simp [Acquire.note]
  notBack := by
    dsimp only [Acquire.note]
    rw [backUp_concat, backUp_concat]
    simp [h.notBack]
  freshBinding := by simpa [Acquire.note] using h.freshBinding
  freshClosed := by simpa [Acquire.note] using h.freshClosed
  freshHeld := h.freshHeld
  kept := by simpa [Acquire.note, Acquire.sockets, Kept] using h.kept
  idle := by simp
  rule := by
    have hprobed : Throughout (PortRule limit) (a.log ++ [.probed false]) := h.rule.concat trivial
    exact hprobed.concat trivial

/-- The probe has told what was known: up before the downtime, down in it. -/
theorem Acquire.Waiting.probed (h : a.Waiting limit) {ready : Bool} (hready : ready = !a.downtimeSeen) :
    (a.note (.probed ready)).Waiting limit where
  down := by
    have hdown := h.down
    cases hseen : a.downtimeSeen <;> simp_all [Acquire.note]
  notBack := by
    have hdown := h.down
    cases hseen : a.downtimeSeen <;> simp_all [Acquire.note, backUp_concat, h.notBack]
  freshBinding := by simpa [Acquire.note] using h.freshBinding
  freshClosed := by simpa [Acquire.note] using h.freshClosed
  freshHeld := h.freshHeld
  kept := by simpa [Acquire.note, Acquire.sockets, Kept] using h.kept
  idle := h.idle
  rule := h.rule.concat trivial

theorem Acquire.Waiting.checkWaits (h : a.Waiting limit) : Acquire.Sound limit (a.checkWaits start t) := by
  have hread : (a.readDeadline t).Waiting limit := by
    unfold Acquire.readDeadline
    split
    · exact h
    · exact h.reading _
  unfold Acquire.checkWaits
  generalize a.readDeadline t = a' at hread
  dsimp only
  split
  · exact returned_giveUp hread.kept hread.rule
  · split
    · next hup =>
      -- no socket has been opened yet
      have hwait := hread.reading t.waitAt
      have hnone := hwait.idle (Bool.eq_false_iff.mpr hup)
      split
      · exact hnone ▸ hwait.returned
      · exact hwait
    · exact hread

/-- Each branch of the check keeps what holds, or ends in order. -/
theorem Acquire.Waiting.check (h : a.Waiting limit) : Acquire.Sound limit (a.check start t) := by
  unfold Acquire.check
  dsimp only
  split
  · next hdown =>
    rw [Bool.eq_false_iff.mpr hdown.1]
    exact h.seen _ _
  · split
    · -- the service is back
      have hrule : Throughout (PortRule limit) (a.log ++ [.probed t.ready]) := h.rule.concat trivial
      have hkept : Kept (a.log ++ [.probed t.ready]) a.sockets := by simpa [Kept] using h.kept
      exact returned_giveUp hkept hrule
    · next hfirst hback =>
      have hready : t.ready = !a.downtimeSeen := by
        cases hseen : a.downtimeSeen <;> simp_all [Acquire.note]
      exact (h.probed hready).checkWaits

/-- A turn keeps what holds, or ends in order. -/
theorem Acquire.Waiting.turn (h : a.Waiting (start + maxLifetimeSeconds)) (ssl : Bool) (t : PortTurn) :
    Acquire.Sound (start + maxLifetimeSeconds) (a.turn ssl start t) := by
  unfold Acquire.turn
  dsimp only
  split
  · next htime =>
    have hstarted := (h.reading t.now).note (e := .iteration) ⟨a.log, t.now, rfl, htime⟩ nofun nofun nofun
    split
    · next hdown =>
      obtain ⟨hhttps, hdown'⟩ := hstarted.tryHttps ssl t hdown
      have hhttp := (hhttps.tryHttp (t := t) hdown').1
      split
      · exact hhttp.returned
      · exact hhttp.check
    · exact hstarted.check
  · exact (h.reading t.now).returned

/-- Every run keeps what holds. -/
theorem sound_turns (ts : List PortTurn) (h : a.Waiting (start + maxLifetimeSeconds)) :
    Acquire.Sound (start + maxLifetimeSeconds) (Acquire.turns ssl start ts a) := by
  induction ts generalizing a with
  | nil => exact h
  | cons t ts ih =>
    have hturn := h.turn ssl t
    unfold Acquire.turns
    split
    · next heq =>
      rw [heq] at hturn
      exact hturn
    · next heq =>
      rw [heq] at hturn
      exact ih hturn

/-- Every run keeps what holds, from the first reading of the clock. -/
theorem sound_acquirePorts (ssl : Bool) (start : ℚ) (ts : List PortTurn) :
    Acquire.Sound (start + maxLifetimeSeconds) (acquirePorts ssl start ts) := by
  have hfirst : Throughout (PortRule (start + maxLifetimeSeconds)) ([] ++ [.reading start]) :=
    Throughout.nil.concat trivial
  refine sound_turns ts ⟨?_, ?_, ?_, ?_, ?_, ?_, fun _ => rfl, hfirst⟩
  all_goals simp [BackUp, Holds, Acquire.sockets, Kept]

/-- The clock does not go back. -/
def Forward (log : List PortEvent) : Prop :=
  log.Pairwise fun e e' => ∀ time time', e = .reading time → e' = .reading time' → time ≤ time'

theorem Acquire.Sound.rule {r : Acquire × Option Sockets} (h : Acquire.Sound limit r) :
    Throughout (PortRule limit) r.1.log := by
  obtain ⟨a, _ | sockets⟩ := r
  · exact Acquire.Waiting.rule h
  · exact Acquire.Returned.rule h

/-- A turn starts before the limit, by every reading of the clock so far. -/
theorem inTime_of_forward {log before after : List PortEvent} (h : Throughout (PortRule limit) log)
    (hforward : Forward log) (hlog : log = before ++ .iteration :: after) {time : ℚ}
    (htime : .reading time ∈ before) : time < limit := by
  obtain ⟨earlier, last, rfl, hlast⟩ := h before .iteration after hlog
  rcases List.mem_append.mp htime with hearlier | hlast'
  · subst hlog
    have hle := (List.pairwise_append.mp (List.pairwise_append.mp hforward).1).2.2 _ hearlier _
      (List.mem_singleton_self _) time last rfl rfl
    exact lt_of_le_of_lt hle hlast
  · cases List.mem_singleton.mp hlast'
    exact hlast

/-- For every schedule of readings, binds and probes: no port is bound before the service has been seen
down; each turn starts at a reading within the lifetime, and after none past it if the clock does not go
back; once the service has been seen back up, no socket is returned; and of the sockets that were opened,
those that are not returned have been closed, and no others. -/
theorem acquirePorts_safe (ssl : Bool) (start : ℚ) (ts : List PortTurn) :
    (∀ before sock port after, (acquirePorts ssl start ts).1.log = before ++ .binding sock port :: after →
      .probed false ∈ before) ∧
    (∀ before after, (acquirePorts ssl start ts).1.log = before ++ .iteration :: after →
      (∃ earlier time, before = earlier ++ [.reading time] ∧ time < start + maxLifetimeSeconds) ∧
        (Forward (acquirePorts ssl start ts).1.log → ∀ time, .reading time ∈ before →
          time < start + maxLifetimeSeconds)) ∧
    ∀ sockets, (acquirePorts ssl start ts).2 = some sockets →
      (BackUp (acquirePorts ssl start ts).1.log → sockets = (none, none)) ∧
        ∀ sock port, .binding sock port ∈ (acquirePorts ssl start ts).1.log →
          (.closed sock ∈ (acquirePorts ssl start ts).1.log ↔ ¬ Holds sockets sock) := by
  have hsound := sound_acquirePorts ssl start ts
  generalize acquirePorts ssl start ts = r at hsound
  have hrule := hsound.rule
  refine ⟨fun before sock port after hlog => ?_, fun before after hlog => ⟨?_, fun hforward time htime => ?_⟩,
    fun sockets houtcome => ?_⟩
  · exact hrule before (.binding sock port) after hlog
  · exact hrule before .iteration after hlog
  · exact inTime_of_forward hrule hforward hlog htime
  · obtain ⟨a, outcome⟩ := r
    cases houtcome
    have hreturned : a.Returned _ sockets := hsound
    exact ⟨hreturned.notBack, hreturned.kept⟩

end OpenHost.Update
