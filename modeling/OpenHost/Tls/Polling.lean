import Mathlib.Algebra.Order.Archimedean.Basic
import Mathlib.Algebra.Order.Field.Rat
import Mathlib.Tactic.Linarith
import OpenHost.Library.Text

/-!
# Polling for a certificate

`_poll_until_issued`: the broker is asked again and again, at growing intervals with a cap, until it has
issued the certificate or a deadline has passed.  The numbers are those of any ordered ring in which no
positive number is infinitely small.
-/

namespace OpenHost.Tls

open Text (truthy?)

variable {K : Type} [Field K] [LinearOrder K]

/-! ## The world outside -/

/-- What `finalize_order` does. -/
inductive FinalizeReply where
  | result (status : String) (certificate : Option String)
  | raised (message : String)
  deriving DecidableEq, Repr

/-- `FINALIZE_STATUS_VALID` -/
def finalizeStatusValid : String := "valid"

/-- One turn of the loop, as far as the loop does not decide it: the clock goes on, before the deadline
is looked at, during the request, and while the loop sleeps longer than it asked to. -/
structure PollTurn (K : Type) [Field K] [LinearOrder K] where
  idle : K
  reply : FinalizeReply
  busy : K
  overslept : K
  idle_nonneg : 0 ≤ idle
  busy_nonneg : 0 ≤ busy
  overslept_nonneg : 0 ≤ overslept

/-! ## The loop -/

/-- How polling ends. -/
inductive Ending where
  | issued (certificate : String)
  /-- `CertApiError`: valid, but no certificate. -/
  | noCertificate
  /-- `finalize_order` has raised. -/
  | raised (message : String)
  /-- `CertAcquisitionTimeoutError` -/
  | timedOut
  deriving DecidableEq, Repr

/-- The parameters of the loop. -/
structure Schedule (K : Type) where
  backoffFactor : K
  maxInterval : K
  deadline : K

/-- The clock and the interval, and what has been done so far. -/
structure Poll (K : Type) where
  now : K
  interval : K
  /-- The time slept. -/
  slept : K
  /-- What the clock showed at each request. -/
  requests : List K
  /-- What the requests were answered. -/
  replies : List FinalizeReply

/-- What a reply means for the loop; `none` is to go on. -/
def FinalizeReply.ending : FinalizeReply → Option Ending
  | .raised message => some (.raised message)
  | .result status certificate =>
    if status = finalizeStatusValid then
      some (match truthy? certificate with
        | some certificate => .issued certificate
        | none => .noCertificate)
    else none

/-- One turn of the loop. -/
def pollTurn (s : Schedule K) (t : PollTurn K) (p : Poll K) : Poll K × Option Ending :=
  let now := p.now + t.idle
  if now < s.deadline then
    let p := { p with
      now := now + t.busy, requests := p.requests ++ [now], replies := p.replies ++ [t.reply] }
    match t.reply.ending with
    | some ending => (p, some ending)
    | none =>
      let sleepFor := min p.interval (s.deadline - p.now)
      if sleepFor ≤ 0 then (p, some .timedOut)
      else
        ({ p with
            now := p.now + sleepFor + t.overslept, slept := p.slept + sleepFor,
            interval := min (p.interval * s.backoffFactor) s.maxInterval },
          none)
  else ({ p with now }, some .timedOut)

section Invariant

variable {s : Schedule K} {p p' : Poll K} {t : PollTurn K} {start least : K} {ending : Ending}

variable [IsStrictOrderedRing K]

/-- What holds when the loop has ended: it has not slept too long, every request was made in time, and
only the last reply can have ended it. -/
structure Ended (s : Schedule K) (start : K) (p : Poll K) (ending : Ending) : Prop where
  slept_timeout : start + p.slept ≤ s.deadline
  inTime : ∀ time ∈ p.requests, time < s.deadline
  last : (∀ r ∈ p.replies, r.ending = none) ∧ ending = .timedOut ∨
    ∃ before r, p.replies = before ++ [r] ∧ (∀ r' ∈ before, r'.ending = none) ∧
      r.ending = some ending

end Invariant

variable [IsStrictOrderedRing K] [Archimedean K]

end OpenHost.Tls
