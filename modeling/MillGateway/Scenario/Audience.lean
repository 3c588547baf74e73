import MillGateway.Gateway

/-! Observers for trying out deliveries: they record what they receive, and may fail or change the
lists of observers on the way. -/

namespace MillGateway.Scenario

open Machine Subscription

/-- What an observer does with every delivery, in this order; `failAfter?` tells how many it accepts
before it fails. -/
structure Behavior where
  subscribe? : Option String := none
  unsubscribe? : Option String := none
  fail : Bool := false
  failAfter? : Option Nat := none
  deriving DecidableEq, Repr

structure Member where
  number : Nat
  channel : Channel
  label : String
  behavior : Behavior
  received : Nat := 0
  deriving DecidableEq, Repr

structure Audience where
  members : List Member := []
  given : List ((Channel × String) × Id) := []
  statusSeen : List (String × Int32) := []
  eventsSeen : List (String × Event) := []
  deriving Repr, Inhabited

namespace Audience

def define (a : Audience) (c : Channel) (label : String) (b : Behavior) : Audience :=
  { a with members := ⟨a.members.length, c, label, b, 0⟩ :: a.members }

def member? (a : Audience) (c : Channel) (label : String) : Option Member :=
  a.members.find? fun m => m.channel == c && m.label == label

def given? (a : Audience) (c : Channel) (label : String) : Option Id :=
  a.given.lookup (c, label)

def give (a : Audience) (c : Channel) (label : String) (id : Id) : Audience :=
  { a with given := ((c, label), id) :: a.given }

def received (a : Audience) (number : Nat) : Audience :=
  { a with members := a.members.map fun m =>
      if m.number = number then { m with received := m.received + 1 } else m }

def clear (a : Audience) : Audience :=
  { a with statusSeen := [], eventsSeen := [] }

def dropThen (c : Channel) (label? : Option String) (a : Audience)
    (k : Audience → Callback Nat Audience) : Callback Nat Audience :=
  match label?.bind (a.given? c) with
  | some id => .unsubscribe c id fun _ => k a
  | none => k a

def subscribeThen (c : Channel) (label? : Option String) (a : Audience)
    (k : Audience → Callback Nat Audience) : Callback Nat Audience :=
  match label?.bind fun l => (a.member? c l).map fun m => (l, m) with
  | some (l, m) => .subscribe c m.number fun id => k (a.give c l id)
  | none => k a

def react (c : Channel) (record : String → Audience → Audience) (number : Nat) (a : Audience) :
    Callback Nat Audience :=
  match a.members.find? (·.number == number) with
  | none => .finish true a
  | some m =>
    let fails := m.behavior.fail || m.behavior.failAfter?.any (· ≤ m.received)
    subscribeThen c m.behavior.subscribe? (record m.label (a.received number)) fun a =>
      dropThen c m.behavior.unsubscribe? a fun a => .finish (!fails) a

def observers : Observers Nat Audience where
  onStatus s := react .status fun label a =>
    { a with statusSeen := a.statusSeen ++ [(label, s.currentLine)] }
  onEvent e := react .errors fun label a =>
    { a with eventsSeen := a.eventsSeen ++ [(label, e)] }

end Audience

end MillGateway.Scenario
