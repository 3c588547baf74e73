import MillGateway.Calendar
import MillGateway.File.Tree
import MillGateway.Job.Advance
import MillGateway.Link.Gate

/-! Tasks taking turns under a virtual clock. Turns come in rounds: first those of the foreground,
then those of the tasks behind it. Time passes only while every task waits; then it moves on to the
first moment at which one need not wait any more. -/

namespace MillGateway

namespace Schedule

/-! ### The world outside -/

structure World where
  gate : Link.Gate := default
  files : FileTree := {}
  now : Nat := 0

inductive Next where
  | elapsed
  | turn
  | stage (s : Link.Gate.Stage)
  | expired

structure Delay where
  due : Nat
  next : Next
  giveUp? : Option Nat := none

namespace World

/-- How a call that is given up at `giveUp` has come on. Of two things at one time, the answer
comes before giving up. -/
def within (giveUp : Nat) (w : World) :
    Link.Gate.Progress (.wait h limit) → (Outside.waitWithin h limit).Answer ⊕ Delay
  | .inl a => .inl (some a)
  | .inr (ms, stage) =>
    if w.now + ms ≤ giveUp then .inr ⟨w.now + ms, .stage stage, some giveUp⟩
    else if giveUp ≤ w.now then .inl none
    else .inr ⟨giveUp, .expired, none⟩

def progress (w : World) : Link.Gate.Progress c → (Outside.link c).Answer ⊕ Delay
  | .inl a => .inl a
  | .inr (ms, stage) => .inr ⟨w.now + ms, .stage stage, none⟩

/-- The world is asked something. Files take a turn, but no time. -/
def ask (o : Outside) (w : World) : (o.Answer ⊕ Delay) × World :=
  match o with
  | .link c =>
    let (p, gate) := w.gate.enter c
    (w.progress p, { w with gate := gate })
  | .waitWithin h limit =>
    let (p, gate) := w.gate.enter (.wait h limit)
    (w.within (w.now + limit) p, { w with gate := gate })
  | .sleep ms => (if ms = 0 then .inl () else .inr ⟨w.now + ms, .elapsed, none⟩, w)
  | .clock => (.inl w.now, w)
  | .localTime => (.inl (Calendar.text (w.now / 1000)), w)
  | .readText _ | .writeText _ _ | .appendText _ _ => (.inr ⟨w.now, .turn, none⟩, w)

def edit (w : World) : Except FileError FileTree → Except FileError Unit × World
  | .ok files => (.ok (), { w with files := files })
  | .error e => (.error e, w)

def resume (o : Outside) (d : Delay) (w : World) : (o.Answer ⊕ Delay) × World :=
  match o with
  | .link c =>
    match d.next with
    | .stage s =>
      let (p, gate) := w.gate.resume c s
      (w.progress p, { w with gate := gate })
    | _ => w.ask (.link c)
  | .waitWithin h limit =>
    match d.next with
    | .stage s =>
      let (p, gate) := w.gate.resume (.wait h limit) s
      (w.within (d.giveUp?.getD w.now) p, { w with gate := gate })
    | _ => (.inl none, w)
  | .sleep _ => (.inl (), w)
  | .clock => (.inl w.now, w)
  | .localTime => (.inl (Calendar.text (w.now / 1000)), w)
  | .readText p => (.inl (w.files.read p), w)
  | .writeText p text =>
    let (r, w) := w.edit (w.files.write p text)
    (.inl r, w)
  | .appendText p text =>
    let (r, w) := w.edit (w.files.append p text)
    (.inl r, w)

end World

/-! ### Tasks -/

structure Ticker where
  period : Nat
  due : Nat
  deriving DecidableEq, Repr

def Ticker.grace : Nat := 5

/-- The ticker after a tick at time `now`. A tick that comes late takes those with it that it has
run into; the next one is on the grid again. -/
def Ticker.tick (t : Ticker) (now : Nat) : Ticker :=
  { t with due :=
      if t.due + grace < now then now + t.period - (now - t.due) % t.period
      else t.due + t.period }

inductive Stand (α : Type) where
  | ready (j : Job α)
  | blocked (k : Job α)
  | waiting (o : Outside) (d : Delay) (k : o.Answer → Job α)
  | ticking
  | ending

/-- A task. One with a ticker does its job again at every tick, and has no result. `since` orders
waits that end at one time. -/
structure Task (α : Type) where
  id : TaskId
  inFront : Bool := false
  repeats? : Option (Ticker × Job α) := none
  stand : Stand α
  since : Nat := 0

def roundLength : Nat := 61

end Schedule

structure Schedule (α ω ε : Type) where
  shared : Shared Schedule.World ω ε
  observers : Observers ω ε
  tasks : List (Schedule.Task α) := []
  front : List TaskId := []
  ready : List TaskId := []
  resting : List TaskId := []
  filing : List TaskId := []
  results : List (TaskId × α) := []
  nextTask : TaskId := 0
  nextWait : Nat := 0
  left : Nat := Job.turnLength
  turns : Nat := Schedule.roundLength

namespace Schedule

variable [DecidableEq ω]

def world (s : Schedule α ω ε) : World :=
  s.shared.world

def now (s : Schedule α ω ε) : Nat :=
  s.world.now

def floor (s : Schedule α ω ε) : Floor World Delay ω ε :=
  ⟨s.observers, World.ask⟩

def setWorld (s : Schedule α ω ε) (w : World) : Schedule α ω ε :=
  { s with shared := { s.shared with world := w } }

def task? (s : Schedule α ω ε) (id : TaskId) : Option (Task α) :=
  s.tasks.find? (·.id == id)

def setTask (s : Schedule α ω ε) (t : Task α) : Schedule α ω ε :=
  { s with tasks := s.tasks.map fun t' => if t'.id = t.id then t else t' }

def enqueue (s : Schedule α ω ε) (ids : List TaskId) : Schedule α ω ε :=
  let (front, ready) := ids.partition fun id => (s.task? id).any (·.inFront)
  { s with front := s.front ++ front, ready := s.ready ++ ready }

def add (s : Schedule α ω ε) (inFront : Bool) (repeats? : Option (Ticker × Job α))
    (stand : Stand α) : TaskId × Schedule α ω ε :=
  (s.nextTask, { s with
    tasks := s.tasks ++ [⟨s.nextTask, inFront, repeats?, stand, 0⟩]
    nextTask := s.nextTask + 1 })

def start (s : Schedule α ω ε) (j : Job α) : TaskId × Schedule α ω ε :=
  let (id, s) := s.add false none (.ready j)
  (id, s.enqueue [id])

/-- Starts a task that does a job at every tick, the first of which is due now. Without a period
there are no ticks, and the task just ends. -/
def startRepeating (s : Schedule α ω ε) (period : Nat) (j : Job α) : TaskId × Schedule α ω ε :=
  let stand := if period = 0 then .ending else .ticking
  let (id, s) := s.add false (some (⟨period, s.now⟩, j)) stand
  (id, s.enqueue [id])

def stop (s : Schedule α ω ε) (id : TaskId) : Schedule α ω ε :=
  match s.task? id with
  | none => s
  | some t =>
    let s := s.setTask { t with stand := .ending }
    if s.ready.contains id then s else s.enqueue [id]

def wake (s : Schedule α ω ε) : Schedule α ω ε :=
  let woken := s.shared.woken
  enqueue { s with
    shared := { s.shared with woken := [] }
    tasks := s.tasks.map fun t =>
      match t.stand with
      | .blocked k => if woken.contains t.id then { t with stand := .ready k } else t
      | _ => t } woken

def drop (s : Schedule α ω ε) (id : TaskId) : Schedule α ω ε :=
  let (woken, locks) := s.shared.locks.abandon id
  wake { s with
    shared := { s.shared with locks := locks, woken := s.shared.woken ++ woken }
    tasks := s.tasks.filter (·.id != id) }

/-- Puts a task where its turn has left it. A repeated job whose tick is due already goes on at
once. -/
def settle (s : Schedule α ω ε) (t : Task α) : Pause Delay α → Schedule α ω ε
  | .finished a =>
    match t.repeats? with
    | none => { s with tasks := s.tasks.filter (·.id != t.id), results := s.results ++ [(t.id, a)] }
    | some (ticker, _) =>
      let s := { s.setTask { t with stand := .ticking, since := s.nextWait } with
        nextWait := s.nextWait + 1 }
      if ticker.due ≤ s.now then { s with ready := t.id :: s.ready } else s
  | .blocked _ k => s.setTask { t with stand := .blocked k }
  | .waiting o d k =>
    let s := { s.setTask { t with stand := .waiting o d k, since := s.nextWait } with
      nextWait := s.nextWait + 1 }
    match d.next with
    | .turn => { s with filing := s.filing ++ [t.id] }
    | _ => s
  | .spent j => { s.setTask { t with stand := .ready j } with resting := t.id :: s.resting }

def carryOn (s : Schedule α ω ε) (t : Task α) (j : Job α) (left : Nat) : Schedule α ω ε :=
  let (p, left, shared) := j.advance s.floor t.id left s.shared
  let s := if t.inFront then { s with left := left } else s
  (wake { s with shared := shared }).settle t p

def turn (s : Schedule α ω ε) (id : TaskId) : Schedule α ω ε :=
  match s.task? id with
  | none => s
  | some t =>
    let left := if t.inFront then s.left else Job.turnLength
    match t.stand with
    | .ready j => s.carryOn t j left
    | .blocked _ => s
    | .waiting o d k =>
      match s.world.resume o d with
      | (.inl a, w) => (s.setWorld w).carryOn t (k a) (left - 1)
      | (.inr d, w) => (s.setWorld w).settle t (.waiting o d k)
    | .ticking =>
      match t.repeats? with
      | none => s
      | some (ticker, j) =>
        s.carryOn { t with repeats? := some (ticker.tick s.now, j) } j (left - 1)
    | .ending => s.drop id

/-! ### Rounds -/

def Task.due? (t : Task α) : Option Nat :=
  match t.stand with
  | .waiting _ d _ => match d.next with
    | .turn => none
    | _ => some d.due
  | .ticking => t.repeats?.map (·.1.due)
  | .ready _ | .blocked _ | .ending => none

/-- Whether the wait of `t` ends in front of that of `t'`: the earlier time counts, then the longer
wait. -/
def Task.precedes (t t' : Task α) : Bool :=
  let due := t.due?.getD 0
  let due' := t'.due?.getD 0
  due < due' || (due == due' && t.since ≤ t'.since)

def nextDue? (s : Schedule α ω ε) : Option Nat :=
  (s.tasks.filterMap Task.due?).min?

def moveTo (s : Schedule α ω ε) (due : Nat) : Schedule α ω ε :=
  let now := max s.now due
  let waited := s.tasks.filter fun t => t.due?.any (· ≤ now)
  (s.setWorld { s.world with now := now }).enqueue ((waited.mergeSort Task.precedes).map (·.id))

def isQuiet (s : Schedule α ω ε) : Bool :=
  s.front.isEmpty && s.ready.isEmpty

/-- Tasks that have rested are to have turns again; if there is nobody else, those that wait for a
file, and if nobody does, those that wait for the next time. -/
def arouse (s : Schedule α ω ε) : Option (Schedule α ω ε) :=
  let s := enqueue { s with resting := [] } s.resting
  let s := if s.isQuiet then enqueue { s with filing := [] } s.filing else s
  if s.isQuiet then s.nextDue?.map s.moveTo else some s

def beginRound (s : Schedule α ω ε) : Schedule α ω ε :=
  let front := s.front
  let s := { s with front := [], turns := roundLength }
  let s := if front.isEmpty then s else { s with left := Job.turnLength }
  front.foldl turn s

def step? (s : Schedule α ω ε) : Option (Schedule α ω ε) :=
  match s.turns, s.ready with
  | turns + 1, id :: rest => some ({ s with turns := turns, ready := rest }.turn id)
  | _, _ => s.arouse.map beginRound

def runFor (busy : Schedule α ω ε → Bool) : (steps : Nat) → Schedule α ω ε → Schedule α ω ε
  | 0, s => s
  | n + 1, s =>
    if busy s then
      match s.step? with
      | some s => s.runFor busy n
      | none => s
    else s

def maxSteps : Nat := 1000000000000000

def run (s : Schedule α ω ε) (busy : Schedule α ω ε → Bool) : Schedule α ω ε :=
  s.runFor busy maxSteps

def collect (s : Schedule α ω ε) (ids : List TaskId) : List α × Schedule α ω ε :=
  (ids.filterMap fun id => s.results.lookup id, { s with results := [] })

def runInFront (s : Schedule α ω ε) (js : List (Job α)) : List α × Schedule α ω ε :=
  let (ids, s) := js.foldl (fun (ids, s) j =>
    let (id, s) := s.add true none (.ready j)
    (ids ++ [id], s)) (([] : List TaskId), s)
  let s := (ids.foldl turn s).run fun s => s.tasks.any (·.inFront)
  s.collect ids

def runOne? (s : Schedule α ω ε) (j : Job α) : Option α × Schedule α ω ε :=
  let (as, s) := s.runInFront [j]
  (as.head?, s)

def runBehind (s : Schedule α ω ε) (js : List (Job α)) : List α × Schedule α ω ε :=
  if js.isEmpty then ([], s)
  else
    let (ids, s) := js.foldl (fun (ids, s) j =>
      let (id, s) := s.start j
      (ids ++ [id], s)) (([] : List TaskId), s)
    let s := s.run fun s =>
      s.tasks.any (·.repeats?.isNone) || (s.turns != 0 && !s.ready.isEmpty)
    { s with left := Job.turnLength - ids.length, turns := roundLength }.collect ids

end Schedule

end MillGateway
