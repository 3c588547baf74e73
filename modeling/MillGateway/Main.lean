import MillGateway.Console.Session
import Std.Time.DateTime.Timestamp

/-! The program: requests come in line by line and are answered one after another. The controller is
simulated; files, clock and waits are those of the system. -/

namespace MillGateway.Live

open Console

structure State where
  gateway : Gateway Empty Unit := { left := () }
  gate : Link.Gate := default
  status? : Option Schedule.Ticker := none
  errors? : Option Schedule.Ticker := none

/-! ### Files -/

def fileError : IO.Error → FileError
  | .noFileOrDirectory _ n t => .ofNumber t n.toNat
  | .inappropriateType _ n t => .ofNumber t n.toNat
  | .invalidArgument _ n t => .ofNumber t n.toNat
  | .permissionDenied _ n t => .ofNumber t n.toNat
  | .resourceExhausted _ n t => .ofNumber t n.toNat
  | .alreadyExists _ n t => .ofNumber t n.toNat
  | .otherError n t => .ofNumber t n.toNat
  | e => .other (toString e) 5

def onFile (p : Path) (act : IO (Except FileError α)) : IO (Except FileError α) := do
  if p.text.contains '\x00' then return .error .nulInName
  try act catch e => return .error (fileError e)

def readText (p : Path) : IO (Except FileError String) :=
  onFile p do
    match String.fromUTF8? (← IO.FS.readBinFile p.text) with
    | some s => return .ok s
    | none => return .error .notText

def writeText (p : Path) (text : String) : IO (Except FileError Unit) :=
  onFile p (.ok <$> IO.FS.writeFile p.text text)

def appendText (p : Path) (text : String) : IO (Except FileError Unit) :=
  onFile p do
    let h ← IO.FS.Handle.mk p.text .append
    h.putStr text
    h.flush
    return .ok ()

/-! ### Jobs -/

def onGate (s : IO.Ref State) (f : Link.Gate → α × Link.Gate) : IO α :=
  s.modifyGet fun st => let (a, gate) := f st.gate; (a, { st with gate := gate })

def localTime : IO String := do
  let t ← Std.Time.Timestamp.now
  return Calendar.text t.toSecondsSinceUnixEpoch.val.toNat

partial def call (rest : Nat → IO Unit) (s : IO.Ref State) (c : Link.Call) : IO c.Answer := do
  go (← onGate s (·.enter c))
where
  go : Link.Gate.Progress c → IO c.Answer
    | .inl a => return a
    | .inr (ms, stage) => do
      rest ms
      go (← onGate s (·.resume c stage))

def waitWithin (rest : Nat → IO Unit) (s : IO.Ref State) (h : Link.Handle) (limit : Nat) :
    IO (Option (Except Link.Error Link.Completion)) := do
  match ← onGate s (·.enter (.wait h limit)) with
  | .inl a => return some a
  | .inr (ms, stage) =>
    rest (min ms limit)
    if limit < ms then return none
    match ← onGate s (·.resume (.wait h limit) stage) with
    | .inl a => return some a
    | .inr _ => return none

/-- Answers what a job asks for. Jobs have their turns one at a time, so each lock is free. -/
def answer (rest : Nat → IO Unit) (s : IO.Ref State) : (r : Request) → IO r.Answer
  | .acquire _ => return ()
  | .release _ => return ()
  | .inside i => s.modifyGet fun st =>
      let (a, gateway) := st.gateway.answer .nobody i
      (a, { st with gateway := gateway })
  | .outside (.link c) => call rest s c
  | .outside (.waitWithin h limit) => waitWithin rest s h limit
  | .outside (.sleep ms) => rest ms
  | .outside .clock => IO.monoMsNow
  | .outside .localTime => localTime
  | .outside (.readText p) => readText p
  | .outside (.writeText p text) => writeText p text
  | .outside (.appendText p text) => appendText p text

def sleep (ms : Nat) : IO Unit :=
  IO.sleep ms.toUInt32

/-! ### Polling -/

def poll (s : IO.Ref State) : IO Unit := do
  let now ← IO.monoMsNow
  if let some t := (← s.get).status? then
    if t.due ≤ now then
      s.modify fun st => { st with status? := some (t.tick now) }
      discard (Job.pollStatus.run (answer sleep s))
  if let some t := (← s.get).errors? then
    if t.due ≤ now then
      s.modify fun st => { st with errors? := some (t.tick now) }
      discard (Job.pollErrors.run (answer sleep s))

def nextPoll (st : State) (last : Nat) : Nat :=
  [st.status?, st.errors?].foldl (fun n t? => t?.elim n fun t => min n t.due) last

partial def restUntil (s : IO.Ref State) (last : Nat) : IO Unit := do
  poll s
  let now ← IO.monoMsNow
  if now < last then
    sleep (max 1 (nextPoll (← s.get) last - now))
    restUntil s last

def rest (s : IO.Ref State) (ms : Nat) : IO Unit := do
  restUntil s ((← IO.monoMsNow) + ms)

/-! ### The console -/

partial def serve (s : IO.Ref State) (setup : Setup) (stdin stdout : IO.FS.Stream) : IO Unit := do
  let line ← try stdin.getLine catch _ => pure ""
  if line.isEmpty then return
  poll s
  if let some line := content? line then
    let reply ← (Console.answer setup line).run (answer (rest s) s)
    stdout.putStrLn reply.toJson.text
    stdout.flush
  serve s setup stdin stdout

partial def linger (s : IO.Ref State) : IO Unit := do
  rest s 1000
  linger s

def run (p : Plan) : IO Unit := do
  let s ← IO.mkRef { gate := { machine := p.simulator } : State }
  p.opening.run (answer sleep s)
  let now ← IO.monoMsNow
  s.modify fun st => { st with
    status? := some ⟨p.settings.polling.statusPeriod, now⟩
    errors? := some ⟨p.settings.polling.errorPeriod, now⟩ }
  serve s p.setup (← IO.getStdin) (← IO.getStdout)
  linger s

def usage : String :=
  "Usage: cnc-bridge [--config <CONFIG>] [--ini <INI>]"

end MillGateway.Live

open MillGateway MillGateway.Live in
def main (args : List String) : IO UInt32 := do
  match Console.Invocation.read args with
  | .misuse => IO.eprintln usage; return 2
  | .help => IO.println usage; return 0
  | .version => IO.println Console.versionText; return 0
  | .run o =>
    let tempDir : Path := ⟨(← IO.getEnv "TMPDIR").getD "/tmp"⟩
    let s ← IO.mkRef ({} : State)
    match ← (Console.Plan.load tempDir o).run (answer sleep s) with
    | .error e => IO.eprintln e.message; return 1
    | .ok p => run p; return 0
