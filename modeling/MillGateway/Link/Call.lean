import MillGateway.Event
import MillGateway.Link.Action

/-! The calls on the link to the controller, what they answer, and why they fail. -/

namespace MillGateway.Link

inductive Error where
  | notRunning (machine : String)
  | channelUnavailable (machine : String)
  | channelClosed
  | unknownHandle (h : Handle)
  | launchFailed (machine : String)
  | reported (text : String)
  deriving DecidableEq, Repr

def Error.message : Error → String
  | .notRunning machine => machine ++ " is not running"
  | .channelUnavailable machine => "cannot open error channel: " ++ machine ++ " is not running"
  | .channelClosed => "error channel closed"
  | .unknownHandle h => "unknown command handle " ++ toString h
  | .launchFailed machine => "failed to launch " ++ machine
  | .reported text => text

abbrev ChannelId := Nat

/-- One call on the link. Waiting for an action ends after `limit` milliseconds at the latest; a
limit of zero reads how far the action has come. -/
inductive Call where
  | pollStatus
  | openChannel
  | pollChannel (channel : ChannelId)
  | issue (a : Action)
  | wait (h : Handle) (limit : Nat)
  | launch
  | shutdown
  deriving Repr

abbrev Call.Value : Call → Type
  | .pollStatus => Machine.Status
  | .openChannel => ChannelId
  | .pollChannel _ => Option Message
  | .issue _ => Handle
  | .wait _ _ => Completion
  | .launch => Unit
  | .shutdown => Unit

abbrev Call.Answer (c : Call) : Type :=
  Except Error c.Value

end MillGateway.Link
