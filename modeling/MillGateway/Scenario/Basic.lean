import MillGateway.Command.Handle
import MillGateway.Scenario.Audience
import MillGateway.Schedule

/-! Trying out the gateway step by step: commands, polls, observers, faults on the link and edits of
files, with a simulated controller and a virtual clock. -/

namespace MillGateway

namespace Scenario

open Machine Subscription

inductive Step where
  | command (name : String) (args : Json)
  | concurrent (cs : List (String × Json))
  | execute (a : Link.Action) (limit : Nat)
  | poll
  | pollBoth
  | pollErrors
  | resetChannel
  | opens
  | snapshot
  | storeStatus (s : Status)
  | markDown
  | startPolling (statusPeriod errorPeriod : Nat)
  | stopPolling
  | sleep (ms : Nat)
  | jump (ms : Nat)
  | observer (c : Channel) (label : String) (b : Behavior)
  | subscribe (c : Channel) (label : String)
  | unsubscribe (c : Channel) (label : String) (on : Channel)
  | count
  | announceStatus (s : Status)
  | announceEvent (e : Event)
  | simulator (running? failLaunch? : Option Bool)
  | script (cs : List Link.Completion)
  | pushMessage (m : Message)
  | editStatus (f : Status → Status)
  | simulatorState
  | faults (p : Link.Gate.Point) (fs : List (Option Link.Gate.Fault))
  | issue (a : Link.Action)
  | wait (h : Link.Handle) (limit : Nat)
  | launch
  | shutdown
  | linkPoll
  | openChannel
  | pollChannel
  | readTools
  | addTool (r : Tool.Record)
  | addTools (rs : List Tool.Record)
  | removeTools (ns : List Int)
  | updateTools (rs : List Tool.Record)
  | showFile (p : Path)
  | putFile (p : Path) (n : FileNode)
  | deleteFile (p : Path)
  | context

inductive Value where
  | done
  | undefinedObserver
  | neverSubscribed
  | flag (b : Bool)
  | flags (bs : List Bool)
  | number (n : Nat)
  | counts (status errors : Nat)
  | reply (r : Reply)
  | replies (rs : List Reply)
  | outcome (o : Outcome)
  | status (s? : Option Status)
  | event (e? : Option Event)
  | message (m? : Option Message)
  | handle (h : Link.Handle)
  | completion (c : Link.Completion)
  | linkError (e : Link.Error)
  | simulatorState (m : Link.Simulator)
  | tools (r : Except Tool.Error (List Tool.Record))
  | added (r : Except Tool.Error Tool.Added)
  | addedAll (rs : List (Except Tool.Error Tool.Added))
  | edited (r : Except Tool.Error Unit)
  | file (n? : Option FileNode)
  | context (s : Setup) (link : String)

/-- What can be seen of a step: its answer, the time it took, whether the controller counts as alive
after it, the actions that the controller received and what observers received. -/
structure Trace where
  value : Value
  ms : Nat
  alive : Bool
  issued : List Link.Action
  statusSeen : List (String × Int32)
  eventsSeen : List (String × Event)

end Scenario

structure Scenario where
  setup : Setup
  home : Path
  schedule : Schedule Scenario.Value Nat Scenario.Audience
  polling : List TaskId := []
  channel? : Option Link.ChannelId := none

namespace Scenario

open Machine Subscription

def start (machine : Link.Simulator) (files : FileTree) (home : Path) (setup : Setup) :
    Scenario where
  setup := setup
  home := home
  schedule := {
    shared := {
      gateway := { left := {} }
      world := { gate := { machine := machine }, files := files } }
    observers := Audience.observers }

def world (s : Scenario) : Schedule.World :=
  s.schedule.world

def machine (s : Scenario) : Link.Simulator :=
  s.world.gate.machine

def gateway (s : Scenario) : Gateway Nat Audience :=
  s.schedule.shared.gateway

def audience (s : Scenario) : Audience :=
  s.gateway.left

def mapWorld (s : Scenario) (f : Schedule.World → Schedule.World) : Scenario :=
  { s with schedule := s.schedule.setWorld (f s.world) }

def mapGate (s : Scenario) (f : Link.Gate → Link.Gate) : Scenario :=
  s.mapWorld fun w => { w with gate := f w.gate }

def mapMachine (s : Scenario) (f : Link.Simulator → Link.Simulator) : Scenario :=
  s.mapGate fun g => { g with machine := f g.machine }

def mapGateway (s : Scenario) (f : Gateway Nat Audience → Gateway Nat Audience) : Scenario :=
  let shared := s.schedule.shared
  { s with schedule := { s.schedule with shared := { shared with gateway := f shared.gateway } } }

def mapAudience (s : Scenario) (f : Audience → Audience) : Scenario :=
  s.mapGateway fun g => { g with left := f g.left }

def mapFiles (s : Scenario) (f : FileTree → FileTree) : Scenario :=
  s.mapWorld fun w => { w with files := f w.files }

def doTogether (s : Scenario) (js : List (Job Value)) : List Value × Scenario :=
  let (vs, schedule) := s.schedule.runInFront js
  (vs, { s with schedule := schedule })

def doApart (s : Scenario) (js : List (Job Value)) : List Value × Scenario :=
  let (vs, schedule) := s.schedule.runBehind js
  (vs, { s with schedule := schedule })

def doJob (s : Scenario) (j : Job Value) : Value × Scenario :=
  let (vs, s) := s.doTogether [j]
  (vs.headD .done, s)

def call (s : Scenario) (c : Link.Call) (f : c.Value → Value) : Value × Scenario :=
  s.doJob do
    match ← Job.link c with
    | .ok v => return f v
    | .error e => return .linkError e

def replyOf? : Value → Option Reply
  | .reply r => some r
  | _ => none

def flagOf? : Value → Option Bool
  | .flag b => some b
  | _ => none

def addedOf? : Value → Option (Except Tool.Error Tool.Added)
  | .added r => some r
  | _ => none

def doTools (s : Scenario) (f : Path → Job Value) : Value × Scenario :=
  match s.setup.toolTable? with
  | some table => s.doJob (f table)
  | none => (.done, s)

def putFile (s : Scenario) (p : Path) (n : FileNode) : Scenario :=
  s.mapFiles fun t => (t.delete (s.home.join p)).place (s.home.join p) n

def deleteFile (s : Scenario) (p : Path) : Scenario :=
  s.mapFiles (·.delete (s.home.join p))

def announce (s : Scenario) (i : Inside) (f : i.Answer → Value) : Value × Scenario :=
  let (a, gateway) := s.gateway.answer Audience.observers i
  (f a, s.mapGateway fun _ => gateway)

def perform (s : Scenario) : Step → Value × Scenario
  | .command name args => s.doJob (.reply <$> handleCommand s.setup name args)
  | .concurrent cs =>
    let (vs, s) := s.doApart (cs.map fun (name, args) => .reply <$> handleCommand s.setup name args)
    (.replies (vs.filterMap replyOf?), s)
  | .execute a limit => s.doJob (.outcome <$> Job.execute a limit)
  | .poll => s.doJob (.status <$> Job.pollStatus)
  | .pollBoth =>
    let poll := (fun s? => Value.flag s?.isSome) <$> Job.pollStatus
    let (vs, s) := s.doTogether [poll, poll]
    (.flags (vs.filterMap flagOf?), s)
  | .pollErrors => s.doJob (.event <$> Job.pollErrors)
  | .resetChannel => s.doJob (do Job.resetChannel; return .done)
  | .opens => (.number s.world.gate.opened, s)
  | .snapshot => s.doJob (.status <$> Job.snapshot)
  | .storeStatus status => s.doJob (.flag <$> Job.storeStatus status)
  | .markDown => s.doJob (.flag <$> Job.markDown)
  | .startPolling statusPeriod errorPeriod =>
    let (id, schedule) := s.schedule.startRepeating statusPeriod (.status <$> Job.pollStatus)
    let (id', schedule) := schedule.startRepeating errorPeriod (.event <$> Job.pollErrors)
    let s := { s with schedule := schedule, polling := [id, id'] }
    s.doJob (do Job.outside (.sleep 1); return .done)
  | .stopPolling =>
    (.done, { s with schedule := s.polling.foldl (·.stop ·) s.schedule, polling := [] })
  | .sleep ms => s.doJob (do Job.outside (.sleep ms); return .done)
  | .jump ms =>
    (s.mapWorld fun w => { w with now := w.now + ms }).doJob
      (do Job.outside (.sleep 1); return .done)
  | .observer c label b => (.done, s.mapAudience (·.define c label b))
  | .subscribe c label =>
    match s.audience.member? c label with
    | none => (.undefinedObserver, s)
    | some m =>
      let (id, registry) := s.gateway.registry.subscribe c m.number
      (.number id, s.mapGateway fun g =>
        { g with registry := registry, left := g.left.give c label id })
  | .unsubscribe c label on =>
    match s.audience.given? c label with
    | none => (.neverSubscribed, s)
    | some id =>
      let (found, registry) := s.gateway.registry.unsubscribe on id
      (.flag found, s.mapGateway fun g => { g with registry := registry })
  | .count => (.counts (s.gateway.registry.count .status) (s.gateway.registry.count .errors), s)
  | .announceStatus status => s.announce (.announceStatus status) .number
  | .announceEvent e => s.announce (.announceEvent e) .number
  | .simulator running? failLaunch? =>
    (.done, s.mapMachine fun m =>
      { m with running := running?.getD m.running, failLaunch := failLaunch?.getD m.failLaunch })
  | .script cs => (.done, s.mapMachine fun m => { m with scripted := m.scripted ++ cs })
  | .pushMessage x => (.done, s.mapMachine fun m => { m with messages := m.messages ++ [x] })
  | .editStatus f => (.done, s.mapMachine fun m => { m with status := f m.status })
  | .simulatorState => (.simulatorState s.machine, s)
  | .faults p fs => (.done, s.mapGate (·.addFaults p fs))
  | .issue a => s.call (.issue a) .handle
  | .wait h limit => s.call (.wait h limit) .completion
  | .launch => s.call .launch fun _ => .done
  | .shutdown => s.call .shutdown fun _ => .done
  | .linkPoll => s.call .pollStatus fun status => .status (some status)
  | .openChannel =>
    let (v, s) := s.call .openChannel .number
    match v with
    | .number id => (.done, { s with channel? := some id })
    | v => (v, s)
  | .pollChannel =>
    match s.channel? with
    | some id => s.call (.pollChannel id) .message
    | none => (.message none, s)
  | .readTools => s.doTools fun table => .tools <$> Tool.Store.read table
  | .addTool r => s.doTools fun table => .added <$> Tool.Store.add table r
  | .addTools rs =>
    match s.setup.toolTable? with
    | some table =>
      let (vs, s) := s.doApart (rs.map fun r => .added <$> Tool.Store.add table r)
      (.addedAll (vs.filterMap addedOf?), s)
    | none => (.done, s)
  | .removeTools ns => s.doTools fun table => .edited <$> Tool.Store.remove table ns
  | .updateTools rs => s.doTools fun table => .edited <$> Tool.Store.update table rs
  | .showFile p => (.file (s.world.files.nodeAt (s.home.join p)).toOption, s)
  | .putFile p n => (.done, s.putFile p n)
  | .deleteFile p => (.done, s.deleteFile p)
  | .context => (.context s.setup s.machine.name, s)

def trace (s : Scenario) (step : Step) : Trace × Scenario :=
  let s := s.mapAudience (·.clear)
  let (value, s') := s.perform step
  let ms := s'.schedule.now - s.schedule.now
  let (alive, s') := s'.doJob (.flag <$> Job.isAlive)
  ({ value := value
     ms := ms
     alive := (flagOf? alive).getD false
     issued := s'.machine.issued.drop s.machine.issued.length
     statusSeen := s'.audience.statusSeen
     eventsSeen := s'.audience.eventsSeen }, s')

def traceAll (s : Scenario) : List Step → List Trace
  | [] => []
  | step :: steps =>
    let (t, s) := s.trace step
    t :: s.traceAll steps

end Scenario

end MillGateway
