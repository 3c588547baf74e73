import MillGateway.Command.Handle
import MillGateway.Console.Options
import MillGateway.Link.Simulator
import MillGateway.Settings

/-! What the program is started with: its settings and the description of its machine, both read
from the files that the command line and the settings name. -/

namespace MillGateway.Console

inductive StartError where
  | settings (e : Settings.LoadError)
  | machineFile
  deriving DecidableEq, Repr

def StartError.message : StartError → String
  | .settings e => "Error: " ++ e.message
  | .machineFile => "Error: Failed to load controller INI"

structure Plan where
  settings : Settings
  ini : Ini
  deriving Repr

namespace Plan

def settingsOf (tempDir : Path) : Option Path → Job (Except StartError Settings)
  | none => return .ok { controller := { stagingDir := tempDir } }
  | some p => do
    match Settings.ofFile tempDir p (← Job.outside (.readText p)) with
    | .ok s => return .ok s
    | .error e => return .error (.settings e)

def iniOf : Option Path → Job (Except StartError Ini)
  | none => return .ok {}
  | some p => do
    match ← Job.outside (.readText p) with
    | .ok text => return .ok { Ini.parse text with path? := some p }
    | .error _ => return .error .machineFile

def load (tempDir : Path) (o : Options) : Job (Except StartError Plan) := do
  match ← settingsOf tempDir o.config? with
  | .error e => return .error e
  | .ok s =>
    let controller := { s.controller with iniPath? := o.ini? <|> s.controller.iniPath? }
    let s := { s with controller := controller }
    match ← iniOf s.controller.iniPath? with
    | .error e => return .error e
    | .ok ini => return .ok ⟨s, ini⟩

def simulator (p : Plan) : Link.Simulator :=
  .new p.settings.controller.name (Machine.axisCount p.ini)

def setup (p : Plan) : Setup :=
  .ofIni p.ini p.settings.controller.stagingDir p.settings.controller.startTimeout

def opening (p : Plan) : Job Unit :=
  if p.settings.controller.autostart then
    discard (handleCommand p.setup Command.startCnc.name .null)
  else return ()

end Plan

end MillGateway.Console
