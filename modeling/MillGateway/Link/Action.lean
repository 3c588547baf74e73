import MillGateway.Decimal.Layout
import MillGateway.Machine.Status
import MillGateway.Path

/-! The actions that the controller understands, and how far it has come with one. -/

namespace MillGateway.Link

open Machine

inductive Jog where
  | stop (axis : UInt32)
  | continuous (axis : UInt32) (velocity : Float)
  | increment (axis : UInt32) (velocity distance : Float)
  deriving Repr

inductive AutoCommand where
  | run (line : Int32)
  | step
  | pause
  | resume
  deriving DecidableEq, Repr

inductive Action where
  | state (s : TaskState)
  | mode (m : TaskMode)
  | home (axis : UInt32)
  | jog (j : Jog)
  | mdi (command : String)
  | auto (c : AutoCommand)
  | programOpen (path : Path)
  | abort
  | resetInterpreter
  | loadToolTable
  deriving Repr

def shownField (name value : String) : String :=
  name ++ ": " ++ value

/-- A description with fields, such as `Stop { axis: 1 }`. -/
def shownRecord (name : String) (fields : List String) : String :=
  name ++ " \x7b " ++ ", ".intercalate fields ++ " \x7d"

def Jog.describe : Jog → String
  | .stop axis => shownRecord "Stop" [shownField "axis" (toString axis)]
  | .continuous axis velocity =>
    shownRecord "Continuous" [shownField "axis" (toString axis),
      shownField "velocity" (Decimal.Layout.display.text velocity)]
  | .increment axis velocity distance =>
    shownRecord "Increment" [shownField "axis" (toString axis),
      shownField "velocity" (Decimal.Layout.display.text velocity),
      shownField "distance" (Decimal.Layout.display.text distance)]

def AutoCommand.describe : AutoCommand → String
  | .run line => shownRecord "Run" [shownField "line" (toString line)]
  | .step => "Step"
  | .pause => "Pause"
  | .resume => "Resume"

namespace Action

def name : Action → String
  | .state _ => "state"
  | .mode _ => "mode"
  | .home _ => "home"
  | .jog _ => "jog"
  | .mdi _ => "mdi"
  | .auto _ => "auto"
  | .programOpen _ => "program_open"
  | .abort => "abort"
  | .resetInterpreter => "reset_interpreter"
  | .loadToolTable => "load_tool_table"

def detail? : Action → Option String
  | .state s => some s.label
  | .mode m => some m.name
  | .home axis => some (toString axis)
  | .jog j => some j.describe
  | .mdi command => some command
  | .auto c => some c.describe
  | .programOpen path => some path.text
  | .abort | .resetInterpreter | .loadToolTable => none

def describe (a : Action) : String :=
  match a.detail? with
  | some d => a.name ++ "(" ++ d ++ ")"
  | none => a.name

end Action

inductive Completion where
  | started
  | done
  | executing
  | error
  deriving DecidableEq, Repr, Inhabited

namespace Completion

def all : List Completion :=
  [.started, .done, .executing, .error]

def name : Completion → String
  | .started => "started"
  | .done => "done"
  | .executing => "executing"
  | .error => "error"

def isSettled : Completion → Bool
  | .done | .error => true
  | .started | .executing => false

end Completion

abbrev Handle := UInt64

end MillGateway.Link
