import OpenHost.Library.Runs

/-!
# Starting an update

`start_apply` of `update.py`, as several callers run it at once, and the detached walk that one of them
launches.  The check for a running walk, the reset of the progress log and the launch are three steps;
the name of the systemd unit lets one walk run at a time.
-/

namespace OpenHost.Update

/-! ## Calls and walks -/

/-- How far a call of `start_apply` is. -/
inductive Call where
  | ready
  /-- `apply_is_running` has said no. -/
  | checked
  /-- The log was reset. -/
  | reset
  | launched
  /-- `detach_apply` has raised, which is not recorded yet. -/
  | failing
  /-- It has raised `ApplyAlreadyRunningError`. -/
  | refused
  | failed
  deriving DecidableEq

/-- An entry of the progress log. -/
structure LoggedEntry where
  phase : String
  message : String
  deriving DecidableEq

/-- A walk that runs as `APPLY_UNIT`, by the call that launched it, with what it has recorded. -/
structure RunningWalk where
  call : Nat
  recorded : List LoggedEntry
  deriving DecidableEq

/-- The calls, the walks that run, and the progress log. -/
structure ApplyState where
  calls : Nat → Call
  walks : List RunningWalk
  log : List LoggedEntry

/-- No call was made, and no walk runs. -/
def ApplyState.start (log : List LoggedEntry) : ApplyState := ⟨fun _ => .ready, [], log⟩

def ApplyState.setCall (s : ApplyState) (i : Nat) (c : Call) : ApplyState :=
  { s with calls := fun j => if j = i then c else s.calls j }

/-- What comes of `systemd-run`. -/
inductive LaunchAnswer where
  /-- It starts the unit, or says that there is one. -/
  | exits
  /-- It is not there, fails or is not answered in time; the unit may have started all the same. -/
  | fails (started : Bool)

inductive ApplyAction where
  /-- `apply_is_running`, which says no where it cannot tell. -/
  | check (i : Nat) (told : Bool)
  /-- `reset_progress`, which passes over an error. -/
  | reset (i : Nat) (written : Bool)
  /-- `detach_apply` -/
  | launch (i : Nat) (answer : LaunchAnswer)
  /-- The handler of `start_apply` records the failure. -/
  | recordFailure (i : Nat) (written : Bool)
  | walkRecords (entry : LoggedEntry)
  | walkEnds

/-- The unit is started, unless there is one. -/
def ApplyState.startUnit (s : ApplyState) (i : Nat) : ApplyState :=
  if s.walks = [] then { s with walks := [⟨i, []⟩] } else s

/-- What `detach_apply` leaves. -/
def ApplyState.launch (s : ApplyState) (i : Nat) : LaunchAnswer → ApplyState
  | .exits => if s.walks = [] then (s.startUnit i).setCall i .launched else s.setCall i .refused
  | .fails true => (s.startUnit i).setCall i .failing
  | .fails false => s.setCall i .failing

/-- A walk records an entry. -/
def RunningWalk.record (entry : LoggedEntry) (w : RunningWalk) : RunningWalk :=
  { w with recorded := w.recorded ++ [entry] }

/-- The next state; `none` where the action is not the next one. -/
def ApplyState.next (s : ApplyState) : ApplyAction → Option ApplyState
  | .check i told =>
      if s.calls i = .ready then
        some (s.setCall i (if told && !s.walks.isEmpty then .refused else .checked))
      else none
  | .reset i written =>
      if s.calls i = .checked then
        some { s.setCall i .reset with log := if written then [] else s.log }
      else none
  | .launch i answer => if s.calls i = .reset then some (s.launch i answer) else none
  | .recordFailure i written =>
      if s.calls i = .failing then
        some { s.setCall i .failed with
          log := if written then s.log ++ [⟨"failed", "Update failed"⟩] else s.log }
      else none
  | .walkRecords entry =>
      if s.walks = [] then none
      else some { s with walks := s.walks.map (RunningWalk.record entry), log := s.log ++ [entry] }
  | .walkEnds => if s.walks = [] then none else some { s with walks := s.walks.tail }

/-- A reset that empties the log comes before any entry of a running walk. -/
def ApplyAction.Spares (s : ApplyState) : ApplyAction → Prop
  | .reset _ true => ∀ w ∈ s.walks, w.recorded = []
  | _ => True

section

variable {s s' : ApplyState}

end

end OpenHost.Update
