import MillGateway.Json.Shape
import MillGateway.Machine.Status
import MillGateway.Tool.Codec

/-! The commands that clients send, by name, and the arguments that each of them takes. -/

namespace MillGateway

open Machine

inductive Command where
  | startCnc
  | stopCnc
  | currentState
  | setState
  | setTaskMode
  | homeAxis
  | homeAll
  | moveAxisStop
  | moveAxisContinuous
  | moveAxisIncrement
  | iniParams
  | loadGcode
  | runGcode
  | stepGcode
  | pauseGcode
  | resumeGcode
  | stopGcode
  | resetInterpreter
  | gcodeContent
  | toolsData
  | addTool
  | deleteTools
  | updateTools
  | reloadToolTable
  | runMdi
  deriving DecidableEq, Repr, Inhabited

namespace Command

def all : List Command := [
  .startCnc, .stopCnc, .currentState, .setState, .setTaskMode, .homeAxis, .homeAll,
  .moveAxisStop, .moveAxisContinuous, .moveAxisIncrement, .iniParams, .loadGcode, .runGcode,
  .stepGcode, .pauseGcode, .resumeGcode, .stopGcode, .resetInterpreter, .gcodeContent,
  .toolsData, .addTool, .deleteTools, .updateTools, .reloadToolTable, .runMdi]

def name : Command → String
  | .startCnc => "start_cnc"
  | .stopCnc => "stop_cnc"
  | .currentState => "current_state"
  | .setState => "set_state"
  | .setTaskMode => "set_task_mode"
  | .homeAxis => "home_axis"
  | .homeAll => "home_all"
  | .moveAxisStop => "move_axis_stop"
  | .moveAxisContinuous => "move_axis_continuous"
  | .moveAxisIncrement => "move_axis_increment"
  | .iniParams => "ini_params"
  | .loadGcode => "load_gcode"
  | .runGcode => "run_gcode"
  | .stepGcode => "step_gcode"
  | .pauseGcode => "pause_gcode"
  | .resumeGcode => "resume_gcode"
  | .stopGcode => "stop_gcode"
  | .resetInterpreter => "reset_interpreter"
  | .gcodeContent => "gcode_content"
  | .toolsData => "tools_data"
  | .addTool => "add_tool"
  | .deleteTools => "delete_tools"
  | .updateTools => "update_tools"
  | .reloadToolTable => "reload_tool_table"
  | .runMdi => "run_mdi"

def ofName? (s : String) : Option Command :=
  all.find? fun c => c.name == s

def requiresLink : Command → Bool
  | .startCnc | .stopCnc | .toolsData | .addTool | .deleteTools | .updateTools => false
  | _ => true

theorem mem_all (c : Command) : c ∈ all := by
  cases c <;> decide

theorem ofName?_name (c : Command) : ofName? c.name = some c := by
  cases c <;> decide

end Command

inductive Order where
  | startCnc
  | stopCnc
  | currentState
  | setState (s : TaskState)
  | setTaskMode (m : TaskMode)
  | homeAxis (axis : UInt32)
  | homeAll
  | moveAxisStop (axis : UInt32)
  | moveAxisContinuous (axis : UInt32) (velocity : Float)
  | moveAxisIncrement (axis : UInt32) (velocity distance : Float)
  | iniParams
  | loadGcode (name content : String)
  | runGcode (line : Int32)
  | stepGcode
  | pauseGcode
  | resumeGcode
  | stopGcode
  | resetInterpreter
  | gcodeContent
  | toolsData
  | addTool (r : Tool.Record)
  | deleteTools (ns : List Int)
  | updateTools (rs : List Tool.Record)
  | reloadToolTable
  | runMdi (command : String)

namespace Order

open Json

def oneField (record : String) (name : String) (s : Shape α) : Shape α := fun j =>
  (·.1) <$> Json.record record (.cons ⟨name, s, none⟩ .nil) j

def jogShape : Shape (UInt32 × Float) := fun j => do
  let (axis, velocity, ()) ← Json.record "ContinuousJogArgs"
    (.cons ⟨"axis_number", uint32, none⟩ <| .cons ⟨"velocity", float64, none⟩ .nil) j
  return (axis, velocity)

def incrementShape : Shape (UInt32 × Float × Float) := fun j => do
  let (axis, velocity, distance, ()) ← Json.record "IncrementJogArgs"
    (.cons ⟨"axis_number", uint32, none⟩ <| .cons ⟨"velocity", float64, none⟩ <|
      .cons ⟨"distance", float64, none⟩ .nil) j
  return (axis, velocity, distance)

def programShape : Shape (String × String) := fun j => do
  let (name, content, ()) ← Json.record "LoadGcodeArgs"
    (.cons ⟨"name", string, none⟩ <| .cons ⟨"content", string, none⟩ .nil) j
  return (name, content)

def lineShape : Shape Int32 := fun j =>
  (·.1) <$> Json.record "RunGcodeArgs" (.cons ⟨"line_number", int32, some 0⟩ .nil) j

def read (c : Command) (args : Json) : Except ShapeError Order :=
  match c with
  | .startCnc => .ok .startCnc
  | .stopCnc => .ok .stopCnc
  | .currentState => .ok .currentState
  | .setState => .setState <$> oneField "SetStateArgs" "state" TaskState.shape args
  | .setTaskMode => .setTaskMode <$> oneField "SetTaskModeArgs" "mode" TaskMode.shape args
  | .homeAxis => .homeAxis <$> oneField "AxisArgs" "axis_number" uint32 args
  | .homeAll => .ok .homeAll
  | .moveAxisStop => .moveAxisStop <$> oneField "AxisArgs" "axis_number" uint32 args
  | .moveAxisContinuous => (fun (a, v) => .moveAxisContinuous a v) <$> jogShape args
  | .moveAxisIncrement => (fun (a, v, d) => .moveAxisIncrement a v d) <$> incrementShape args
  | .iniParams => .ok .iniParams
  | .loadGcode => (fun (n, s) => .loadGcode n s) <$> programShape args
  | .runGcode => .runGcode <$> lineShape args
  | .stepGcode => .ok .stepGcode
  | .pauseGcode => .ok .pauseGcode
  | .resumeGcode => .ok .resumeGcode
  | .stopGcode => .ok .stopGcode
  | .resetInterpreter => .ok .resetInterpreter
  | .gcodeContent => .ok .gcodeContent
  | .toolsData => .ok .toolsData
  | .addTool => .addTool <$> oneField "AddToolArgs" "tool" Tool.Record.shape args
  | .deleteTools => .deleteTools <$> oneField "DeleteToolsArgs" "tools" (list int64) args
  | .updateTools =>
    .updateTools <$> oneField "UpdateToolsArgs" "tools_data" (list Tool.Record.shape) args
  | .reloadToolTable => .ok .reloadToolTable
  | .runMdi => .runMdi <$> oneField "MdiArgs" "command" string args

end Order

end MillGateway
