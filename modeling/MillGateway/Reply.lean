import MillGateway.Json.Cursor
import MillGateway.Link.Call
import MillGateway.Machine.Description
import MillGateway.Machine.Guard
import MillGateway.Tool.Codec
import MillGateway.Tool.Error

/-! What a client is told: how its command came out, as a code and a text, and the data it asked
for. -/

namespace MillGateway

open Machine

inductive Outcome where
  | ok
  | toolExists
  | notRunning
  | timedOut
  | commandError
  | unsupported
  | linkRefused (e : Link.Error)
  | alreadyRunning
  | launchFailed (e : Link.Error)
  | startTimedOut
  | stopFailed (e : Link.Error)
  | badArguments (e : ShapeError)
  | malformed (e : Json.ReadError)
  | noSuchMode
  | entryRefused (r : EntryRefusal)
  | emptyCommand
  | badProgramName (name : String)
  | saveFailed (path : Path) (e : FileError)
  | openFailed (path : Path) (e : FileError)
  | noAxes
  | noToolTable
  | toolTable (e : Tool.Error)
  deriving Repr

namespace Outcome

def code : Outcome → Int32
  | .ok => 0
  | .toolExists => 1
  | .timedOut | .alreadyRunning | .badArguments _ | .malformed _ | .noSuchMode | .emptyCommand
  | .badProgramName _ | .saveFailed .. | .openFailed .. | .noAxes | .noToolTable => -1
  | .notRunning | .commandError | .linkRefused _ | .launchFailed _ | .startTimedOut
  | .stopFailed _ | .entryRefused _ => -2
  | .unsupported => -3
  | .toolTable e => e.code

def text : Outcome → String
  | .ok => "OK"
  | .toolExists => "already exists in tool table"
  | .notRunning => "not running"
  | .timedOut => "command timed out"
  | .commandError => "command error"
  | .unsupported => "unsupported command"
  | .linkRefused e => e.message
  | .alreadyRunning => "already running"
  | .launchFailed e => "controller start error: " ++ e.message
  | .startTimedOut => "controller start timed out"
  | .stopFailed e => "controller stop error: " ++ e.message
  | .badArguments e => e.message
  | .malformed e => e.message
  | .noSuchMode => "invalid task mode: unknown"
  | .entryRefused r => r.message
  | .emptyCommand => "empty MDI command"
  | .badProgramName name => "invalid program name: " ++ name
  | .saveFailed path e => "failed to save " ++ path.text ++ ": " ++ e.message
  | .openFailed path e => "failed to read " ++ path.text ++ ": " ++ e.message
  | .noAxes => "no axis info found"
  | .noToolTable => "no tool table configured"
  | .toolTable e => e.message

end Outcome

structure ResultView where
  text : String
  code : Int32
  deriving DecidableEq, Repr

namespace ResultView

def isOk (r : ResultView) : Bool :=
  r.code == 0

def shape : Json.Shape ResultView := fun j => do
  let (text, code, ()) ← Json.record "CommandResult"
    (.cons ⟨"text", Json.string, none⟩ <| .cons ⟨"code", Json.int32, none⟩ .nil) j
  return ⟨text, code⟩

def toJson (r : ResultView) : Json :=
  .ofMembers [("text", .str r.text), ("code", .ofInt r.code.toInt)]

end ResultView

def Outcome.view (o : Outcome) : ResultView :=
  ⟨o.text, o.code⟩

def Outcome.isOk (o : Outcome) : Bool :=
  o.view.isOk

inductive Reply.Body where
  | empty
  | status (r : Report)
  | tools (rs : List Tool.Record)
  | machine (d : Description)
  | content (text : String)

def Reply.Body.members : Body → List (String × Json)
  | .empty => []
  | .status r => r.members
  | .tools rs => [("tools", .arr (rs.map Tool.Record.toJson))]
  | .machine d => d.members
  | .content text => [("content", .str text)]

structure Reply where
  outcome : Outcome
  body : Reply.Body := .empty

namespace Reply

def of (o : Outcome) : Reply :=
  ⟨o, .empty⟩

def code (r : Reply) : Int32 :=
  r.outcome.code

def status (s : Status) : Reply :=
  ⟨.ok, .status s.report⟩

def toJson (r : Reply) : Json :=
  .ofMembers (r.body.members ++ [("result", r.outcome.view.toJson)])

end Reply

end MillGateway
