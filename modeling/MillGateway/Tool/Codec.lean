import MillGateway.Json.Shape
import MillGateway.Tool.Record

/-! Tools as JSON objects, whose keys are the field symbols. -/

namespace MillGateway.Tool.Record

def keyOfName? (name : String) : Option Key :=
  match name.toList with
  | [c] => Key.ofSymbol? c
  | _ => none

/-- The text that a member's value stands for: a number or a truth value for its JSON text, `null`
for none at all. -/
def memberText? (k : Key) : Json → Except ShapeError (Option String)
  | .null => .ok none
  | .str s => .ok (some s)
  | .num n => .ok (some n.text)
  | .bool b => .ok (some (if b then "true" else "false"))
  | .arr _ | .obj _ => .error (.badToolField k.symbol)

def takeMember (r : Record) (m : String × Json) : Except ShapeError Record :=
  match keyOfName? m.1 with
  | none => .ok r
  | some k => do
    match ← memberText? k m.2 with
    | none => return r
    | some v => return r.set k v

def shape : Json.Shape Record
  | .obj ms => ms.foldlM takeMember empty
  | j => j.refuse "a map"

def toJson (r : Record) : Json :=
  .ofMembers (r.fields.map fun (k, v) => (k.symbol.toString, .str v))

end MillGateway.Tool.Record
