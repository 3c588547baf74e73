import MillGateway.Ini
import MillGateway.Json.Basic
import MillGateway.Text.Integer
import MillGateway.Word

/-! What the settings tell about a machine: its name, its speeds, and its axes with their limits. -/

namespace MillGateway.Machine

structure Axis where
  number : Nat
  maxLimit? : Option String
  minLimit? : Option String
  homeOffset? : Option String
  deriving DecidableEq, Repr

structure Description where
  name : String
  defaultVelocity? : Option String
  maxLinearVelocity? : Option String
  axisCount : Nat
  axes : List Axis
  deriving DecidableEq, Repr, Inhabited

/-- The number of axes in the settings; without a readable one there are none. -/
def axisCount (ini : Ini) : Nat :=
  ((ini.find "TRAJ" "AXES").bind fun v => Text.readNat? Word.maxUInt64 v.toList).getD 0

namespace Axis

def ofIni (ini : Ini) (number : Nat) : Axis :=
  let param := ini.find ("AXIS_" ++ toString number)
  ⟨number, param "MAX_LIMIT", param "MIN_LIMIT", param "HOME_OFFSET"⟩

def toJson (a : Axis) : Json :=
  let param (name : String) (v? : Option String) := v?.toList.map fun v => (name, Json.str v)
  .ofMembers (("number", .ofInt a.number) :: param "max_limit" a.maxLimit? ++
    param "min_limit" a.minLimit? ++ param "home_offset" a.homeOffset?)

end Axis

namespace Description

def ofIni (ini : Ini) : Description where
  name := (ini.find "EMC" "MACHINE").getD "unknown"
  defaultVelocity? := ini.find "TRAJ" "DEFAULT_VELOCITY"
  maxLinearVelocity? := ini.find "TRAJ" "MAX_LINEAR_VELOCITY"
  axisCount := Machine.axisCount ini
  axes := (List.range (Machine.axisCount ini)).map (Axis.ofIni ini)

def members (d : Description) : List (String × Json) := [
  ("machine_name", .str d.name),
  ("default_velocity", .ofText? d.defaultVelocity?),
  ("max_linear_velocity", .ofText? d.maxLinearVelocity?),
  ("axis_num", .ofInt d.axisCount),
  ("axis_info", .arr (d.axes.map Axis.toJson))]

def toJson (d : Description) : Json :=
  .ofMembers d.members

end Description

end MillGateway.Machine
