import MillGateway.Cache
import MillGateway.File.Error
import MillGateway.Link.Call

/-! A job is a finite program whose steps ask for something: a lock, a look at the gateway's own
state, or an answer from outside. What answers it is decided elsewhere, so one job runs alone, in
turns with others, or against any controller. -/

namespace MillGateway

open Machine

inductive Lock where
  /-- Held from before a status poll until its outcome is in the cache and delivered. -/
  | polling
  | channel
  | cache
  | editing
  deriving DecidableEq, Repr

inductive Inside where
  | cache
  /-- Keeps a status, and tells whether the controller was down before. -/
  | store (s : Status)
  /-- Forgets the status, and tells whether the controller was alive before. -/
  | markDown
  | channel
  | setChannel (c? : Option Link.ChannelId)
  | nextEventId
  | announceStatus (s : Status)
  | announceEvent (e : Event)

abbrev Inside.Answer : Inside → Type
  | .cache => Cache
  | .store _ => Bool
  | .markDown => Bool
  | .channel => Option Link.ChannelId
  | .setChannel _ => Unit
  | .nextEventId => UInt64
  | .announceStatus _ => Nat
  | .announceEvent _ => Nat

/-- Steps that the world outside answers, perhaps later. Times are in milliseconds. -/
inductive Outside where
  | link (c : Link.Call)
  /-- Waiting for an action, given up after `limit` whatever the controller does. -/
  | waitWithin (h : Link.Handle) (limit : Nat)
  | sleep (ms : Nat)
  | clock
  | localTime
  | readText (p : Path)
  | writeText (p : Path) (text : String)
  | appendText (p : Path) (text : String)

abbrev Outside.Answer : Outside → Type
  | .link c => c.Answer
  | .waitWithin _ _ => Option (Except Link.Error Link.Completion)
  | .sleep _ => Unit
  | .clock => Nat
  | .localTime => String
  | .readText _ => Except FileError String
  | .writeText _ _ => Except FileError Unit
  | .appendText _ _ => Except FileError Unit

/-- How many steps of a turn an answer at once takes up. A sleep might have had to wait. -/
def Outside.effort : Outside → Nat
  | .sleep _ => 1
  | _ => 0

inductive Request where
  | acquire (l : Lock)
  | release (l : Lock)
  | inside (i : Inside)
  | outside (o : Outside)

abbrev Request.Answer : Request → Type
  | .acquire _ => Unit
  | .release _ => Unit
  | .inside i => i.Answer
  | .outside o => o.Answer

inductive Job (α : Type) where
  | done (a : α)
  | ask (r : Request) (k : r.Answer → Job α)

namespace Job

def bind : Job α → (α → Job β) → Job β
  | .done a, f => f a
  | .ask r k, f => .ask r fun x => (k x).bind f

instance : Monad Job where
  pure := done
  bind := bind

theorem bind_done (j : Job α) : j.bind done = j := by
  induction j with
  | done a => rfl
  | ask r k ih => simp only [bind, ih]

theorem bind_assoc (j : Job α) (f : α → Job β) (g : β → Job γ) :
    (j.bind f).bind g = j.bind fun a => (f a).bind g := by
  induction j with
  | done a => rfl
  | ask r k ih => simp only [bind, ih]

def inside (i : Inside) : Job i.Answer :=
  .ask (.inside i) .done

def outside (o : Outside) : Job o.Answer :=
  .ask (.outside o) .done

def link (c : Link.Call) : Job c.Answer :=
  outside (.link c)

def locked (l : Lock) (j : Job α) : Job α :=
  .ask (.acquire l) fun _ => j.bind fun a => .ask (.release l) fun _ => .done a

def run [Monad m] (answer : (r : Request) → m r.Answer) : Job α → m α
  | .done a => pure a
  | .ask r k => do run answer (k (← answer r))

end Job

end MillGateway
