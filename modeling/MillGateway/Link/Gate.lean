import MillGateway.Link.Simulator

/-! A simulated controller behind a gate that can hold up calls or let them fail. -/

namespace MillGateway.Link

inductive Gate.Point where
  | pollStatus
  | openChannel
  | pollChannel
  | issue
  | wait
  | launch
  | shutdown
  deriving DecidableEq, Repr

def Call.point : Call → Gate.Point
  | .pollStatus => .pollStatus
  | .openChannel => .openChannel
  | .pollChannel _ => .pollChannel
  | .issue _ => .issue
  | .wait _ _ => .wait
  | .launch => .launch
  | .shutdown => .shutdown

/-- What happens to one call: it is held up, and fails if there is a text to fail with. -/
structure Gate.Fault where
  delay : Nat := 0
  fail? : Option String := none
  deriving DecidableEq, Repr

structure Gate where
  machine : Simulator
  queue : Gate.Point → List (Option Gate.Fault) := fun _ => []
  opened : Nat := 0

instance : Inhabited Gate := ⟨⟨default, fun _ => [], 0⟩⟩

inductive Gate.Stage where
  | held (fail? : Option String)
  | settling (reached : Completion)
  deriving DecidableEq, Repr

namespace Gate

abbrev Progress (c : Call) := c.Answer ⊕ (Nat × Stage)

def addFaults (g : Gate) (p : Point) (faults : List (Option Fault)) : Gate :=
  { g with queue := fun q => if q = p then g.queue q ++ faults else g.queue q }

def perform (g : Gate) (c : Call) : Progress c × Gate :=
  let (a, machine) := g.machine.answer (g.opened + 1) c
  let g := { g with machine := machine }
  match c, a with
  | .openChannel, .ok id => (.inl (.ok id), { g with opened := g.opened + 1 })
  | .wait h limit, .ok reached =>
    match Simulator.delay (.wait h limit) (.ok reached) with
    | 0 => (.inl (.ok reached), g)
    | ms => (.inr (ms, .settling reached), g)
  | _, a => (.inl a, g)

def pass (g : Gate) (c : Call) : Option String → Progress c × Gate
  | some text => (.inl (.error (.reported text)), g)
  | none => g.perform c

def enter (g : Gate) (c : Call) : Progress c × Gate :=
  match g.queue c.point with
  | [] => g.perform c
  | fault :: rest =>
    let g := { g with queue := fun q => if q = c.point then rest else g.queue q }
    match fault with
    | none => g.perform c
    | some f => if f.delay = 0 then g.pass c f.fail? else (.inr (f.delay, .held f.fail?), g)

def resume (g : Gate) (c : Call) : Stage → Progress c × Gate
  | .held fail? => g.pass c fail?
  | .settling reached =>
    match c with
    | .wait _ _ => (.inl (.ok reached), g)
    | c => g.perform c

end Gate

end MillGateway.Link
