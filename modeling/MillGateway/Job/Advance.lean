import MillGateway.Gateway

/-! How a task comes on with its job: up to the end, to a lock that another task holds, to an answer
from outside that takes time, or to the end of its turn. Locks are handed on in the order in which
they were asked for. -/

namespace MillGateway

abbrev TaskId := Nat

structure LockState where
  holder : Option TaskId := none
  waiting : List TaskId := []
  deriving DecidableEq, Repr, Inhabited

abbrev Locks := Lock → LockState

namespace Locks

def free : Locks := fun _ => {}

def set (ls : Locks) (l : Lock) (s : LockState) : Locks :=
  fun l' => if l' = l then s else ls l'

def acquire (ls : Locks) (l : Lock) (me : TaskId) : Bool × Locks :=
  match (ls l).holder with
  | none => (true, ls.set l { ls l with holder := some me })
  | some _ => (false, ls.set l { ls l with waiting := (ls l).waiting ++ [me] })

def release (ls : Locks) (l : Lock) : Option TaskId × Locks :=
  match (ls l).waiting with
  | [] => (none, ls.set l {})
  | t :: ts => (some t, ls.set l ⟨some t, ts⟩)

def abandon (ls : Locks) (me : TaskId) : List TaskId × Locks :=
  [Lock.polling, .channel, .cache, .editing].foldl (fun (woken, ls) l =>
    let ls := ls.set l { ls l with waiting := (ls l).waiting.filter (· != me) }
    if (ls l).holder = some me then
      let (next?, ls) := ls.release l
      (woken ++ next?.toList, ls)
    else (woken, ls)) ([], ls)

end Locks

/-- What all tasks see: the gateway, the locks, and the world outside. `woken` lists the tasks that
have come to hold a lock they waited for. -/
structure Shared (σ ω ε : Type) where
  gateway : Gateway ω ε
  locks : Locks := .free
  woken : List TaskId := []
  world : σ

inductive Pause (δ α : Type) where
  | finished (a : α)
  | blocked (l : Lock) (k : Job α)
  | waiting (o : Outside) (d : δ) (k : o.Answer → Job α)
  | spent (j : Job α)

structure Floor (σ δ ω ε : Type) where
  observers : Observers ω ε
  ask : (o : Outside) → σ → (o.Answer ⊕ δ) × σ

namespace Job

variable [DecidableEq ω]

/-- How many steps that might have had to wait a task takes in one turn, so that no task keeps the
others from theirs. -/
def turnLength : Nat := 128

/-- Comes on with a job as task `me` until it stops, in a turn with so many steps left. What is left
of the turn then is told too. -/
def advance (floor : Floor σ δ ω ε) (me : TaskId) :
    Job α → (left : Nat) → Shared σ ω ε → Pause δ α × Nat × Shared σ ω ε
  | .done a, left, s => (.finished a, left, s)
  | .ask (.acquire l) k, 0, s => (.spent (.ask (.acquire l) k), 0, s)
  | .ask (.acquire l) k, left + 1, s =>
    let (held, locks) := s.locks.acquire l me
    let s := { s with locks := locks }
    if held then (k ()).advance floor me left s else (.blocked l (k ()), left + 1, s)
  | .ask (.release l) k, left, s =>
    let (next?, locks) := s.locks.release l
    (k ()).advance floor me left { s with locks := locks, woken := s.woken ++ next?.toList }
  | .ask (.inside i) k, left, s =>
    let (a, gateway) := s.gateway.answer floor.observers i
    (k a).advance floor me left { s with gateway := gateway }
  | .ask (.outside o) k, left, s =>
    if left < o.effort then (.spent (.ask (.outside o) k), left, s)
    else
      let (answer, world) := floor.ask o s.world
      let s := { s with world := world }
      match answer with
      | .inl a => (k a).advance floor me (left - o.effort) s
      | .inr d => (.waiting o d k, left, s)

end Job

end MillGateway
