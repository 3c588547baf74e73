import MillGateway.Json.Shape

/-! One complete look at the machine, and the report of it that clients receive. -/

namespace MillGateway.Machine

inductive TaskState where
  | estop
  | estopReset
  | off
  | on
  deriving DecidableEq, Repr, Inhabited

inductive TaskMode where
  | unknown
  | manual
  | auto
  | mdi
  deriving DecidableEq, Repr, Inhabited

inductive InterpState where
  | unknown
  | idle
  | reading
  | paused
  | waiting
  deriving DecidableEq, Repr, Inhabited

namespace TaskState

def all : List TaskState :=
  [.estop, .estopReset, .off, .on]

def name : TaskState → String
  | .estop => "estop"
  | .estopReset => "estop_reset"
  | .off => "off"
  | .on => "on"

def label : TaskState → String
  | .estop => "Estop"
  | .estopReset => "EstopReset"
  | .off => "Off"
  | .on => "On"

def shape : Json.Shape TaskState :=
  Json.variant (all.map fun s => (s.name, s))

end TaskState

namespace TaskMode

def all : List TaskMode :=
  [.unknown, .manual, .auto, .mdi]

def name : TaskMode → String
  | .unknown => "unknown"
  | .manual => "manual"
  | .auto => "auto"
  | .mdi => "mdi"

def title : TaskMode → String
  | .unknown => "Unknown"
  | .manual => "Manual"
  | .auto => "Auto"
  | .mdi => "MDI"

def shape : Json.Shape TaskMode :=
  Json.variant (all.map fun m => (m.name, m))

end TaskMode

namespace InterpState

def all : List InterpState :=
  [.unknown, .idle, .reading, .paused, .waiting]

def name : InterpState → String
  | .unknown => "unknown"
  | .idle => "idle"
  | .reading => "reading"
  | .paused => "paused"
  | .waiting => "waiting"

def shape : Json.Shape InterpState :=
  Json.variant (all.map fun s => (s.name, s))

end InterpState

structure Position where
  x : Float := 0
  y : Float := 0
  z : Float := 0
  deriving Repr, Inhabited

namespace Position

def shape : Json.Shape Position := fun j => do
  let (x, y, z, ()) ← Json.record "Position"
    (.cons ⟨"x", Json.float64, none⟩ <| .cons ⟨"y", Json.float64, none⟩ <|
      .cons ⟨"z", Json.float64, none⟩ .nil) j
  return ⟨x, y, z⟩

def toJson (p : Position) : Json :=
  .ofMembers [("x", .ofFloat p.x), ("y", .ofFloat p.y), ("z", .ofFloat p.z)]

end Position

structure Status where
  position : Position := {}
  taskState : TaskState := .estop
  taskMode : TaskMode := .unknown
  estop : Bool := false
  enabled : Bool := false
  homed : List Bool := []
  currentLine : Int32 := 0
  motionLine : Int32 := 0
  motionMode : Int32 := 0
  motionType : Int32 := 0
  readLine : Int32 := 0
  interpState : InterpState := .unknown
  file : String := ""
  command : String := ""
  toolInSpindle : Int32 := 0
  deriving Repr, Inhabited

namespace Status

def allHomed (s : Status) : Bool :=
  s.homed.all id

def interpIdle (s : Status) : Bool :=
  s.interpState == .idle

end Status

structure Report where
  position : Position
  estop : String
  taskState : String
  taskMode : String
  homed : List Bool
  currentLine : Int32
  motionLine : Int32
  motionMode : Int32
  motionType : Int32
  readLine : Int32
  interpState : String
  file : String
  command : String
  toolInSpindle : Int32
  deriving Repr

/-- The report of a status. While the machine is neither on nor off, its task state is told by the
emergency stop. -/
def Status.report (s : Status) : Report where
  position := s.position
  estop := if s.estop then "estop" else "estop reset"
  taskState := match s.taskState with
    | .on => "on"
    | .off => "off"
    | .estop | .estopReset => if s.estop then "estop" else "estop_reset"
  taskMode := s.taskMode.name
  homed := s.homed
  currentLine := s.currentLine
  motionLine := s.motionLine
  motionMode := s.motionMode
  motionType := s.motionType
  readLine := s.readLine
  interpState := s.interpState.name
  file := s.file
  command := s.command
  toolInSpindle := s.toolInSpindle

namespace Report

def members (r : Report) : List (String × Json) := [
  ("position", r.position.toJson),
  ("estop", .str r.estop),
  ("task_state", .str r.taskState),
  ("task_mode", .str r.taskMode),
  ("homed", .arr (r.homed.map .bool)),
  ("current_line", .ofInt r.currentLine.toInt),
  ("motion_line", .ofInt r.motionLine.toInt),
  ("motion_mode", .ofInt r.motionMode.toInt),
  ("motion_type", .ofInt r.motionType.toInt),
  ("read_line", .ofInt r.readLine.toInt),
  ("interp_state", .str r.interpState),
  ("file", .str r.file),
  ("command", .str r.command),
  ("tool_in_spindle", .ofInt r.toolInSpindle.toInt)]

def toJson (r : Report) : Json :=
  .ofMembers r.members

end Report

end MillGateway.Machine
