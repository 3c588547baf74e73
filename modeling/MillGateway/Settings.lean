import MillGateway.File.Error
import MillGateway.Path
import MillGateway.Timing
import MillGateway.Toml.Reader

/-! The settings that the gateway is started with. Every setting has a default, so a text that says
nothing sets up a gateway that runs. -/

namespace MillGateway

structure ControllerSettings where
  name : String := "controller"
  iniPath? : Option Path := none
  stagingDir : Path
  autostart : Bool := false
  startTimeout : Nat := Timing.startTimeout
  deriving DecidableEq, Repr

structure PollingSettings where
  statusInterval : Nat := Timing.statusPoll
  errorInterval : Nat := Timing.errorPoll
  deriving DecidableEq, Repr

structure LogSettings where
  level : String := "info"
  json : Bool := false
  deriving DecidableEq, Repr

structure Settings where
  controller : ControllerSettings
  polling : PollingSettings := {}
  log : LogSettings := {}
  deriving DecidableEq, Repr

namespace PollingSettings

def statusPeriod (s : PollingSettings) : Nat :=
  max s.statusInterval 1

def errorPeriod (s : PollingSettings) : Nat :=
  max s.errorInterval 1

end PollingSettings

namespace Settings

/-! ### Reading -/

inductive Part where
  | named (ms : Toml.Members)
  | listed (vs : List Toml.Value)

/-- A date counts as a table that names no setting. -/
def Part.ofValue? : Toml.Value → Option Part
  | .table _ ms => some (.named ms)
  | .moment _ => some (.named [])
  | .array vs => some (.listed vs)
  | .tables items => some (.listed (items.map (.table .header)))
  | _ => none

def part? (whole : Toml.Members) (name : String) : Option Part :=
  match whole.lookup name with
  | some v => Part.ofValue? v
  | none => some (.named [])

def Part.get (p : Part) (index : Nat) (name : String) (read : Toml.Value → Option α) (default : α) :
    Option α :=
  let v? := match p with
    | .named ms => ms.lookup name
    | .listed vs => vs[index]?
  match v? with
  | some v => read v
  | none => some default

def text? : Toml.Value → Option String
  | .string s => some s
  | _ => none

def path? (v : Toml.Value) : Option Path :=
  (text? v).map Path.mk

def flag? : Toml.Value → Option Bool
  | .boolean b => some b
  | _ => none

def natural? : Toml.Value → Option Nat
  | .integer n => if 0 ≤ n then some n.toNat else none
  | _ => none

def controller? (tempDir : Path) (p : Part) : Option ControllerSettings := do
  let d : ControllerSettings := { stagingDir := tempDir }
  return {
    name := ← p.get 0 "name" text? d.name
    iniPath? := ← p.get 1 "ini_path" (some <$> path? ·) d.iniPath?
    stagingDir := ← p.get 2 "staging_dir" path? d.stagingDir
    autostart := ← p.get 3 "autostart" flag? d.autostart
    startTimeout := ← p.get 4 "start_timeout_ms" natural? d.startTimeout }

def polling? (p : Part) : Option PollingSettings := do
  let d : PollingSettings := {}
  return {
    statusInterval := ← p.get 0 "status_interval_ms" natural? d.statusInterval
    errorInterval := ← p.get 1 "error_interval_ms" natural? d.errorInterval }

def log? (p : Part) : Option LogSettings := do
  let d : LogSettings := {}
  return {
    level := ← p.get 0 "level" text? d.level
    json := ← p.get 1 "json" flag? d.json }

/-- The settings that a text writes. Programs are saved in `tempDir` unless it says otherwise;
settings that are not known count for nothing. -/
def read? (tempDir : Path) (s : String) : Option Settings := do
  let whole ← Toml.read? s
  return {
    controller := ← controller? tempDir (← part? whole "controller")
    polling := ← polling? (← part? whole "polling")
    log := ← log? (← part? whole "log") }

def invalidText : String :=
  "Invalid bridge configuration"

/-! ### Files -/

inductive LoadError where
  | unreadable (p : Path)
  | invalid (p : Path)
  deriving DecidableEq, Repr

def LoadError.message : LoadError → String
  | .unreadable p => "Failed to read config file " ++ p.text
  | .invalid p => "Failed to parse config file " ++ p.text

def ofFile (tempDir p : Path) (content : Except FileError String) : Except LoadError Settings :=
  match content with
  | .error _ => .error (.unreadable p)
  | .ok s =>
    match read? tempDir s with
    | some settings => .ok settings
    | none => .error (.invalid p)

end Settings

end MillGateway
