/-! Values of TOML and the tables they make up. A table remembers how it came about, since that
decides what may still be added to it. -/

namespace MillGateway.Toml

structure Date where
  year : Nat
  month : Nat
  day : Nat
  deriving DecidableEq, Repr

structure Time where
  hour : Nat
  minute : Nat
  second : Nat
  fraction : List Char := []
  deriving DecidableEq, Repr

structure Moment where
  date? : Option Date := none
  time? : Option Time := none
  offset? : Option Int := none
  deriving DecidableEq, Repr

inductive Origin where
  | header
  | implied
  | dotted
  | inline
  deriving DecidableEq, Repr

inductive Value where
  | string (s : String)
  | integer (n : Int)
  | float (x : Float)
  | boolean (b : Bool)
  | moment (m : Moment)
  | array (items : List Value)
  | table (origin : Origin) (members : List (String × Value))
  | tables (items : List (List (String × Value)))
  deriving Repr

abbrev Members := List (String × Value)

namespace Members

def put (k : String) (v : Value) : Members → Members
  | [] => [(k, v)]
  | (k', v') :: ms => if k' = k then (k, v) :: ms else (k', v') :: put k v ms

/-- Adds a value under a dotted key. On the way there only tables may lie that no header names, and
the table that receives the value has to come from dotted keys too; through tables that share a
name the last one is meant. -/
def addDotted (v : Value) : List String → Members → Option Members
  | [], _ => none
  | [k], ms => if (ms.lookup k).isSome then none else some (ms.put k v)
  | k :: k' :: ks, ms =>
    match ms.lookup k with
    | none => do return ms.put k (.table .dotted (← addDotted v (k' :: ks) []))
    | some (.table .dotted inner) => do
      return ms.put k (.table .dotted (← addDotted v (k' :: ks) inner))
    | some (.table .implied inner) => do
      guard !ks.isEmpty
      return ms.put k (.table .implied (← addDotted v (k' :: ks) inner))
    | some (.tables items) => do
      guard !ks.isEmpty
      let inner ← addDotted v (k' :: ks) (← items.getLast?)
      return ms.put k (.tables (items.dropLast ++ [inner]))
    | some _ => none

/-- Changes what stands at the end of a header's path. Tables that are missing on the way are
implied; through tables that share a name the last one is meant. -/
def alterAt (f : Option Value → Option Value) : List String → Members → Option Members
  | [], _ => none
  | [k], ms => do return ms.put k (← f (ms.lookup k))
  | k :: k' :: ks, ms =>
    match ms.lookup k with
    | none => do return ms.put k (.table .implied (← alterAt f (k' :: ks) []))
    | some (.table .inline _) => none
    | some (.table origin inner) => do
      return ms.put k (.table origin (← alterAt f (k' :: ks) inner))
    | some (.tables items) => do
      let inner ← alterAt f (k' :: ks) (← items.getLast?)
      return ms.put k (.tables (items.dropLast ++ [inner]))
    | some _ => none

end Members

/-! ### Sections -/

structure Entry where
  key : List String
  value : Value
  deriving Repr

inductive Header where
  | only (path : List String)
  | oneOf (path : List String)
  deriving Repr

structure Section where
  header : Header
  entries : List Entry
  deriving Repr

def Entry.addAll (es : List Entry) (ms : Members) : Option Members :=
  es.foldlM (fun ms e => ms.addDotted e.value e.key) ms

namespace Section

/-- The members that a table starts from when a header names it. That is possible once, and not
where keys have made the table. -/
def opened : Option Value → Option Members
  | none => some []
  | some (.table .implied ms) => some ms
  | some _ => none

def pushed (ms : Members) : Option Value → Option Value
  | none => some (.tables [ms])
  | some (.tables items) => some (.tables (items ++ [ms]))
  | some _ => none

def addTo (whole : Members) (s : Section) : Option Members :=
  match s.header with
  | .only path =>
    whole.alterAt (fun v? => do return .table .header (← Entry.addAll s.entries (← opened v?))) path
  | .oneOf path => whole.alterAt (fun v? => do pushed (← Entry.addAll s.entries []) v?) path

end Section

end MillGateway.Toml
