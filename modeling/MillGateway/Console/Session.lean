import MillGateway.Console.Request
import MillGateway.Console.Start
import MillGateway.Schedule

/-! The program with everything around it in memory: files, a clock that moves on only while all
wait, and lines with their replies. -/

namespace MillGateway

def Observers.nobody : Observers Empty Unit :=
  ⟨fun _ o _ => o.elim, fun _ o _ => o.elim⟩

namespace Console

def answer (s : Setup) (line : String) : Job Reply :=
  match Request.read line with
  | .ok r => handleCommand s r.command r.args
  | .error e => return .of (.malformed e)

structure Session where
  setup : Setup
  schedule : Schedule (Option Reply) Empty Unit

namespace Session

def idle (gate : Link.Gate) (files : FileTree) : Schedule α Empty Unit where
  shared := { gateway := { left := () }, world := { gate := gate, files := files } }
  observers := .nobody

def ofPlan (p : Plan) (files : FileTree) : Session :=
  let schedule := ((idle { machine := p.simulator } files).runOne?
    (do p.opening; return none : Job (Option Reply))).2
  let (_, schedule) := schedule.startRepeating p.settings.polling.statusPeriod
    (do discard Job.pollStatus; return none)
  let (_, schedule) := schedule.startRepeating p.settings.polling.errorPeriod
    (do discard Job.pollErrors; return none)
  ⟨p.setup, schedule⟩

def start (tempDir : Path) (o : Options) (files : FileTree) : Except StartError Session := do
  match ((idle default files).runOne? (Plan.load tempDir o)).1 with
  | some (.ok p) => return ofPlan p files
  | some (.error e) => .error e
  | none => .error .machineFile

def receive (s : Session) (line : String) : Option Reply × Session :=
  match content? line with
  | none => (none, s)
  | some line =>
    let (r?, schedule) := s.schedule.runOne? (some <$> answer s.setup line)
    (r?.join, { s with schedule := schedule })

def replies (s : Session) : List String → List Reply
  | [] => []
  | line :: lines =>
    let (r?, s) := s.receive line
    r?.toList ++ s.replies lines

end Session

end Console

end MillGateway
