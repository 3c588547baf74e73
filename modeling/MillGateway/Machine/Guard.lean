import MillGateway.Machine.Status

/-! What has to hold before the machine enters a task mode. The first condition that does not hold
decides. -/

namespace MillGateway.Machine

inductive Precondition where
  | axesHomed
  | interpreterIdle
  | notInEstop
  | machineEnabled
  deriving DecidableEq, Repr

namespace Precondition

def isMet (s : Status) : Precondition → Bool
  | .axesHomed => s.allHomed
  | .interpreterIdle => s.interpIdle
  | .notInEstop => !s.estop
  | .machineEnabled => s.enabled

def reason : Precondition → String
  | .axesHomed => "Axes not homed"
  | .interpreterIdle => "Interpreter is running"
  | .notInEstop => "CNC in Estop state"
  | .machineEnabled => "CNC is disabled"

end Precondition

def TaskMode.preconditions : TaskMode → List Precondition
  | .mdi => [.axesHomed, .interpreterIdle, .notInEstop, .machineEnabled]
  | .manual => [.interpreterIdle, .notInEstop, .machineEnabled]
  | .auto | .unknown => []

structure EntryRefusal where
  mode : TaskMode
  unmet : Precondition
  deriving DecidableEq, Repr

def EntryRefusal.message (r : EntryRefusal) : String :=
  "Cannot enter " ++ r.mode.title ++ " mode: " ++ r.unmet.reason

def Status.entryRefusal? (s : Status) (mode : TaskMode) : Option EntryRefusal :=
  (mode.preconditions.find? fun p => !p.isMet s).map fun p => ⟨mode, p⟩

end MillGateway.Machine
