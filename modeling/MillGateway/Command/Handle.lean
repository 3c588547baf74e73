import MillGateway.Command.Basic
import MillGateway.Job.Execute
import MillGateway.Timing
import MillGateway.Tool.Store

/-! Carrying out commands. A command that needs the controller is refused while it is down; its
arguments are read only after that. -/

namespace MillGateway

open Machine Job

structure Setup where
  machine : Description
  toolTable? : Option Path
  stagingDir : Path
  startTimeout : Nat
  deriving Repr, Inhabited

namespace Setup

def ofIni (ini : Ini) (stagingDir : Path) (startTimeout : Nat) : Setup :=
  ⟨.ofIni ini, ini.toolTable?, stagingDir, startTimeout⟩

end Setup

namespace Handle

def act (a : Link.Action) (limit : Nat) : Job Reply := do
  return .of (← execute a limit)

def attempt (a : Link.Action) (limit : Nat) : Job Unit :=
  discard (execute a limit)

/-! ### Starting and stopping -/

/-- Polls until the controller answers. A failed poll at the deadline or later is the last one; the
pauses between polls leave room for `tries` of them before it. -/
def awaitAnswer (deadline : Nat) : (tries : Nat) → Job Bool
  | 0 => return false
  | tries + 1 => do
    if (← pollStatus).isSome then return true
    if deadline ≤ (← outside .clock) then return false
    outside (.sleep Timing.startPoll)
    awaitAnswer deadline tries

def startCnc (s : Setup) : Job Reply := do
  if (← pollStatus).isSome then return .of .alreadyRunning
  match ← link .launch with
  | .error e => return .of (.launchFailed e)
  | .ok () =>
    let deadline := (← outside .clock) + s.startTimeout
    if ← awaitAnswer deadline (s.startTimeout / Timing.startPoll + 2) then
      resetChannel
      return .of .ok
    else return .of .startTimedOut

def stopCnc : Job Reply := do
  match ← link .shutdown with
  | .error e => return .of (.stopFailed e)
  | .ok () =>
    discard pollStatus
    return .of .ok

/-! ### Status and task mode -/

def currentState : Job Reply := do
  match ← snapshot with
  | some s => return .status s
  | none => return .of .notRunning

def iniParams (s : Setup) : Job Reply :=
  return ⟨if s.machine.axisCount = 0 then .noAxes else .ok, .machine s.machine⟩

def setTaskMode (mode : TaskMode) : Job Reply := do
  if mode = .unknown then return .of .noSuchMode
  match ← pollStatus with
  | none => return .of .notRunning
  | some s =>
    match s.entryRefusal? mode with
    | some r => return .of (.entryRefused r)
    | none => act (.mode mode) Timing.modeSwitch

/-! ### Motion -/

def homeEach : List UInt32 → Job Outcome
  | [] => return .ok
  | axis :: axes => do
    let o ← execute (.home axis) Timing.home
    if o.isOk then homeEach axes else return o

def axisNumbers (count : Nat) : List UInt32 :=
  (List.range (count % UInt32.size)).map UInt32.ofNat

def homeAll (s : Setup) : Job Reply := do
  attempt (.mode .manual) Timing.noWait
  return .of (← homeEach (axisNumbers s.machine.axisCount))

def jog (j : Link.Jog) : Job Reply := do
  attempt (.mode .manual) Timing.noWait
  act (.jog j) Timing.noWait

def runMdi (command : String) : Job Reply :=
  let command := String.ofList (Text.trim command.toList)
  if command = "" then return .of .emptyCommand else act (.mdi command) Timing.noWait

/-! ### Programs -/

/-- Saves a program in the staging directory and opens it. The machine is left in manual mode. -/
def loadGcode (s : Setup) (name content : String) : Job Reply := do
  if !Path.isPlainName name then return .of (.badProgramName name)
  let path := s.stagingDir.join ⟨name⟩
  match ← outside (.writeText path content) with
  | .error e => return .of (.saveFailed path e)
  | .ok () =>
    attempt .resetInterpreter Timing.noWait
    attempt (.mode .auto) Timing.programMode
    let o ← execute (.programOpen path) Timing.programOpen
    attempt (.mode .manual) Timing.programMode
    return .of o

def runGcode (line : Int32) : Job Reply := do
  attempt (.mode .auto) Timing.programMode
  act (.auto (.run line)) Timing.noWait

/-- Goes one step on in the program. After a change to automatic mode two steps more are needed
before the first one that moves. -/
def stepGcode : Job Reply := do
  match ← pollStatus with
  | none => return .of .notRunning
  | some s =>
    if s.taskMode ≠ .auto then
      attempt (.mode .auto) Timing.programMode
      attempt (.auto .step) Timing.noWait
      attempt (.auto .step) Timing.noWait
    act (.auto .step) Timing.noWait

def gcodeContent : Job Reply := do
  match ← pollStatus with
  | none => return .of .notRunning
  | some s =>
    if s.file = "" then return ⟨.ok, .content ""⟩
    match ← outside (.readText ⟨s.file⟩) with
    | .ok text => return ⟨.ok, .content text⟩
    | .error e => return .of (.openFailed ⟨s.file⟩ e)

/-! ### Tools -/

def withToolTable (s : Setup) (f : Path → Job Reply) : Job Reply :=
  match s.toolTable? with
  | some table => f table
  | none => return .of .noToolTable

def toolsData (s : Setup) : Job Reply :=
  withToolTable s fun table => do
    match ← Tool.Store.read table with
    | .ok rs => return ⟨.ok, .tools rs⟩
    | .error e => return .of (.toolTable e)

def addTool (s : Setup) (r : Tool.Record) : Job Reply :=
  withToolTable s fun table => do
    match ← Tool.Store.add table r with
    | .ok .added => return .of .ok
    | .ok .exists => return .of .toolExists
    | .error e => return .of (.toolTable e)

def edited : Except Tool.Error Unit → Reply
  | .ok () => .of .ok
  | .error e => .of (.toolTable e)

def deleteTools (s : Setup) (ns : List Int) : Job Reply :=
  withToolTable s fun table => edited <$> Tool.Store.remove table ns

def updateTools (s : Setup) (rs : List Tool.Record) : Job Reply :=
  withToolTable s fun table => edited <$> Tool.Store.update table rs

/-! ### All commands -/

def order (s : Setup) : Order → Job Reply
  | .startCnc => startCnc s
  | .stopCnc => stopCnc
  | .currentState => currentState
  | .setState t => act (.state t) Timing.state
  | .setTaskMode m => setTaskMode m
  | .homeAxis axis => act (.home axis) Timing.home
  | .homeAll => homeAll s
  | .moveAxisStop axis => act (.jog (.stop axis)) Timing.noWait
  | .moveAxisContinuous axis v => jog (.continuous axis v)
  | .moveAxisIncrement axis v d => jog (.increment axis v d)
  | .iniParams => iniParams s
  | .loadGcode name content => loadGcode s name content
  | .runGcode line => runGcode line
  | .stepGcode => stepGcode
  | .pauseGcode => act (.auto .pause) Timing.noWait
  | .resumeGcode => act (.auto .resume) Timing.noWait
  | .stopGcode => act .abort Timing.noWait
  | .resetInterpreter => act .resetInterpreter Timing.noWait
  | .gcodeContent => gcodeContent
  | .toolsData => toolsData s
  | .addTool r => addTool s r
  | .deleteTools ns => deleteTools s ns
  | .updateTools rs => updateTools s rs
  | .reloadToolTable => act .loadToolTable Timing.noWait
  | .runMdi command => runMdi command

end Handle

def argsOrEmpty : Json → Json
  | .null => .obj []
  | args => args

def handleCommand (s : Setup) (name : String) (args : Json) : Job Reply :=
  match Command.ofName? name with
  | none => return .of .unsupported
  | some c => do
    if c.requiresLink then
      if !(← isAlive) then return .of .notRunning
    match Order.read c (argsOrEmpty args) with
    | .error e => return .of (.badArguments e)
    | .ok o => Handle.order s o

end MillGateway
