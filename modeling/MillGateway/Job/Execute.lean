import MillGateway.Job.Poll
import MillGateway.Reply

/-! Having the controller do one action. With a limit, the end of the action is awaited; without
one, only an error that is known at once counts. -/

namespace MillGateway.Job

/-- What an awaited action comes to. An action that has not ended counts as timed out. -/
def awaitedOutcome : Option (Except Link.Error Link.Completion) → Outcome
  | some (.ok .done) => .ok
  | some (.ok .error) | some (.error _) => .commandError
  | some (.ok .started) | some (.ok .executing) | none => .timedOut

def immediateOutcome : Except Link.Error Link.Completion → Outcome
  | .ok .error | .error _ => .commandError
  | .ok _ => .ok

/-- Issues an action and waits for its end for `limit` milliseconds. Nothing is issued to a
controller that is down. -/
def execute (a : Link.Action) (limit : Nat) : Job Outcome := do
  if !(← isAlive) then return .notRunning
  match ← link (.issue a) with
  | .error e => return .linkRefused e
  | .ok h =>
    if limit = 0 then return immediateOutcome (← link (.wait h 0))
    else return awaitedOutcome (← outside (.waitWithin h limit))

end MillGateway.Job
