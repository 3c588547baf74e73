/-! Lists of observers, one for each channel. An observer stands at most once in a list. Delivery
goes to the observers that are listed when it starts; while it runs, observers may change the
lists, and those that fail leave theirs at the end. -/

namespace MillGateway.Subscription

inductive Channel where
  | status
  | errors
  deriving DecidableEq, Repr

def Channel.name : Channel → String
  | .status => "status"
  | .errors => "errors"

abbrev Id := Nat

structure Entry (ω : Type) where
  id : Id
  observer : ω
  deriving Repr

structure Registry (ω : Type) where
  status : List (Entry ω) := []
  errors : List (Entry ω) := []
  nextId : Id := 0
  deriving Repr

instance : Inhabited (Registry ω) := ⟨{}⟩

namespace Registry

def list (r : Registry ω) : Channel → List (Entry ω)
  | .status => r.status
  | .errors => r.errors

def setList (r : Registry ω) (c : Channel) (es : List (Entry ω)) : Registry ω :=
  match c with
  | .status => { r with status := es }
  | .errors => { r with errors := es }

def subscribe [DecidableEq ω] (r : Registry ω) (c : Channel) (o : ω) : Id × Registry ω :=
  match (r.list c).find? fun e => e.observer == o with
  | some e => (e.id, r)
  | none =>
    (r.nextId, { r.setList c (r.list c ++ [⟨r.nextId, o⟩]) with nextId := r.nextId + 1 })

def unsubscribe (r : Registry ω) (c : Channel) (id : Id) : Bool × Registry ω :=
  ((r.list c).any fun e => e.id == id, r.setList c ((r.list c).filter fun e => e.id != id))

def count (r : Registry ω) (c : Channel) : Nat :=
  (r.list c).length

end Registry

/-- What an observer does with a delivery: it may change the lists, and ends by accepting or
failing. It leaves behind a value of its own. -/
inductive Callback (ω ε : Type) where
  | finish (accepted : Bool) (left : ε)
  | subscribe (c : Channel) (o : ω) (k : Id → Callback ω ε)
  | unsubscribe (c : Channel) (id : Id) (k : Bool → Callback ω ε)

def Callback.run [DecidableEq ω] : Callback ω ε → Registry ω → Bool × ε × Registry ω
  | .finish accepted left, r => (accepted, left, r)
  | .subscribe c o k, r => let (id, r) := r.subscribe c o; (k id).run r
  | .unsubscribe c id k, r => let (found, r) := r.unsubscribe c id; (k found).run r

namespace Registry

def deliver [DecidableEq ω] (react : ω → ε → Callback ω ε) :
    List (Entry ω) → ε → Registry ω → List Id × ε × Registry ω
  | [], left, r => ([], left, r)
  | e :: es, left, r =>
    let (accepted, left, r) := (react e.observer left).run r
    let (failed, left, r) := deliver react es left r
    (if accepted then failed else e.id :: failed, left, r)

def notify [DecidableEq ω] (react : ω → ε → Callback ω ε) (c : Channel) (left : ε)
    (r : Registry ω) : Nat × ε × Registry ω :=
  let listed := r.list c
  let (failed, left, r) := deliver react listed left r
  (listed.length - failed.length, left,
    r.setList c ((r.list c).filter fun e => !failed.contains e.id))

end Registry

end MillGateway.Subscription
