import MillGateway.Link.Call

/-! A controller that exists only in memory: its status reacts to the actions it receives, it queues
messages, and it can be told in advance how actions complete. -/

namespace MillGateway.Link

open Machine

structure Simulator where
  name : String
  running : Bool := false
  failLaunch : Bool := false
  status : Status := {}
  messages : List Message := []
  issued : List Action := []
  /-- Completions for the next actions, which then have no other effect. -/
  scripted : List Completion := []
  /-- Completions that nobody has collected. -/
  completions : List (Handle × Completion) := []
  lastHandle : Handle := 0
  deriving Repr, Inhabited

namespace Simulator

def new (name : String) (axes : Nat) : Simulator where
  name := name
  status := {
    taskState := .estop
    taskMode := .manual
    estop := true
    homed := List.replicate axes false
    interpState := .idle }

def setTaskState (s : Status) (t : TaskState) : Status :=
  match t with
  | .estop => { s with taskState := t, estop := true, enabled := false }
  | .estopReset | .off => { s with taskState := t, estop := false, enabled := false }
  | .on => { s with taskState := t, enabled := true }

/-- What an action does to the machine, and how it completes. Power is refused in emergency stop,
and an axis that does not exist cannot be homed. -/
def apply (s : Status) : Action → Status × Completion
  | .state t =>
    if t = .on ∧ s.estop then (s, .error) else (setTaskState s t, .done)
  | .mode m => ({ s with taskMode := m }, .done)
  | .home axis =>
    if axis.toNat < s.homed.length then ({ s with homed := s.homed.set axis.toNat true }, .done)
    else (s, .error)
  | .jog _ | .loadToolTable => (s, .done)
  | .mdi command => ({ s with command := command }, .done)
  | .auto (.run line) => ({ s with currentLine := line, interpState := .reading }, .done)
  | .auto .step | .auto .pause => ({ s with interpState := .paused }, .done)
  | .auto .resume => ({ s with interpState := .reading }, .done)
  | .programOpen path => ({ s with file := path.text }, .done)
  | .abort | .resetInterpreter => ({ s with interpState := .idle }, .done)

def keep (h : Handle) (c : Completion) (cs : List (Handle × Completion)) :
    List (Handle × Completion) :=
  (h, c) :: cs.filter (·.1 != h)

def issue (m : Simulator) (a : Action) : Except Error Handle × Simulator :=
  if !m.running then (.error (.notRunning m.name), m)
  else
    let (status, completion, scripted) := match m.scripted with
      | c :: cs => (m.status, c, cs)
      | [] => let (s, c) := apply m.status a; (s, c, [])
    let h := m.lastHandle + 1
    (.ok h, { m with
      status := status
      scripted := scripted
      issued := m.issued ++ [a]
      completions := keep h completion m.completions
      lastHandle := h })

/-- Reads how far an action has come. A settled completion is given away once. -/
def collect (m : Simulator) (h : Handle) : Except Error Completion × Simulator :=
  match m.completions.lookup h with
  | none => (.error (.unknownHandle h), m)
  | some c =>
    (.ok c, if c.isSettled then { m with completions := m.completions.filter (·.1 != h) } else m)

def launch (m : Simulator) : Except Error Unit × Simulator :=
  if m.failLaunch then (.error (.launchFailed m.name), m) else (.ok (), { m with running := true })

def pollStatus (m : Simulator) : Except Error Status :=
  if m.running then .ok m.status else .error (.notRunning m.name)

def pollChannel (m : Simulator) : Except Error (Option Message) × Simulator :=
  if !m.running then (.error .channelClosed, m)
  else match m.messages with
    | [] => (.ok none, m)
    | x :: xs => (.ok (some x), { m with messages := xs })

def answer (m : Simulator) (next : ChannelId) : (c : Call) → c.Answer × Simulator
  | .pollStatus => (m.pollStatus, m)
  | .openChannel => (if m.running then .ok next else .error (.channelUnavailable m.name), m)
  | .pollChannel _ => m.pollChannel
  | .issue a => m.issue a
  | .wait h _ => m.collect h
  | .launch => m.launch
  | .shutdown => (.ok (), { m with running := false })

/-- How long a call takes after its answer is known: waiting for an action that does not settle
uses up its limit. -/
def delay : (c : Call) → c.Answer → Nat
  | .wait _ limit, .ok c => if c.isSettled then 0 else limit
  | _, _ => 0

end Simulator

end MillGateway.Link
