import MillGateway.Json.Writer
import MillGateway.Text.Quoted
import MillGateway.Word

/-! Reading typed values out of JSON values, and what is wrong with a value of another shape. -/

namespace MillGateway

inductive Found where
  | null
  | bool (b : Bool)
  | num (n : JsonNumber)
  | str (s : String)
  | seq
  | map
  deriving Repr

inductive ShapeError where
  | missingField (name : String)
  | duplicateField (name : String)
  | tooShort (size : Nat) (record : String) (fields : Nat)
  | tooLong (size : Nat)
  | unexpected (found : Found) (expected : String)
  | outOfRange (n : Int) (expected : String)
  | notOneKey
  | unknownVariant (name : String) (known : List String)
  | badToolField (symbol : Char)
  deriving Repr

namespace Found

def ofJson : Json → Found
  | .null => .null
  | .bool b => .bool b
  | .num n => .num n
  | .str s => .str s
  | .arr _ => .seq
  | .obj _ => .map

def describe : Found → String
  | .null => "null"
  | .bool b => "boolean `" ++ (if b then "true" else "false") ++ "`"
  | .num (.int n) => "integer `" ++ toString n ++ "`"
  | .num (.float x) => "floating point `" ++ (JsonNumber.float x).text ++ "`"
  | .str s => "string " ++ Text.quote s
  | .seq => "sequence"
  | .map => "map"

end Found

namespace ShapeError

def named (s : String) : String :=
  "`" ++ s ++ "`"

def message : ShapeError → String
  | .missingField name => "missing field " ++ named name
  | .duplicateField name => "duplicate field " ++ named name
  | .tooShort size record fields =>
    "invalid length " ++ toString size ++ ", expected struct " ++ record ++ " with " ++
      toString fields ++ (if fields = 1 then " element" else " elements")
  | .tooLong size =>
    "invalid length " ++ toString size ++ ", expected fewer elements in array"
  | .unexpected found expected => "invalid type: " ++ found.describe ++ ", expected " ++ expected
  | .outOfRange n expected =>
    "invalid value: integer " ++ named (toString n) ++ ", expected " ++ expected
  | .notOneKey => "invalid value: map, expected map with a single key"
  | .unknownVariant name known =>
    "unknown variant " ++ named name ++ ", expected one of " ++ ", ".intercalate (known.map named)
  | .badToolField symbol => "invalid value for tool field '" ++ symbol.toString ++ "'"

end ShapeError

namespace Json

abbrev Shape (α : Type) := Json → Except ShapeError α

def refuse (j : Json) (expected : String) : Except ShapeError α :=
  .error (.unexpected (Found.ofJson j) expected)

def integer (name : String) (lo hi : Int) : Shape Int
  | .num (.int n) => if lo ≤ n ∧ n ≤ hi then .ok n else .error (.outOfRange n name)
  | j => j.refuse name

def uint32 : Shape UInt32 := fun j =>
  (fun n => UInt32.ofNat n.toNat) <$> integer "u32" 0 Word.maxUInt32 j

def int32 : Shape Int32 := fun j =>
  Int32.ofInt <$> integer "i32" Word.minInt32 Word.maxInt32 j

def int64 : Shape Int :=
  integer "i64" Word.minInt64 Word.maxInt64

def floatOfInt (n : Int) : Float :=
  if n < 0 then -n.natAbs.toUInt64.toFloat else n.natAbs.toUInt64.toFloat

def float64 : Shape Float
  | .num (.int n) => .ok (floatOfInt n)
  | .num (.float x) => .ok x
  | j => j.refuse "f64"

def string : Shape String
  | .str s => .ok s
  | j => j.refuse "a string"

def list (item : Shape α) : Shape (List α)
  | .arr items => items.mapM item
  | j => j.refuse "a sequence"

/-- One of some named values: its name, or an object whose only key is the name and whose content
is `null`. -/
def variant (known : List (String × α)) : Shape α
  | .str s => choose s
  | .obj [(k, v)] => do
    let a ← choose k
    match v with
    | .null => return a
    | v => v.refuse "unit"
  | .obj _ => .error .notOneKey
  | j => j.refuse "string or map"
where
  choose (s : String) : Except ShapeError α :=
    match known.lookup s with
    | some a => .ok a
    | none => .error (.unknownVariant s (known.map (·.1)))

structure Field (α : Type) where
  name : String
  shape : Shape α
  default? : Option α := none

inductive Fields : Type → Type 1 where
  | nil : Fields Unit
  | cons (f : Field α) (rest : Fields β) : Fields (α × β)

namespace Fields

def size : Fields ρ → Nat
  | .nil => 0
  | .cons _ rest => rest.size + 1

def check (k : String) (v : Json) : Fields ρ → Except ShapeError Unit
  | .nil => .ok ()
  | .cons f rest => if f.name = k then discard (f.shape v) else rest.check k v

def ofMembers (ms : Members) : Fields ρ → Except ShapeError ρ
  | .nil => .ok ()
  | .cons f rest => do
    let a ← match ms.lookup f.name, f.default? with
      | some v, _ => f.shape v
      | none, some a => .ok a
      | none, none => .error (.missingField f.name)
    return (a, ← rest.ofMembers ms)

def ofItems (record : String) (total index : Nat) (items : List Json) :
    Fields ρ → Except ShapeError (ρ × List Json)
  | .nil => .ok ((), items)
  | .cons f rest => do
    let (a, items) ← match items, f.default? with
      | v :: vs, _ => (·, vs) <$> f.shape v
      | [], some a => .ok (a, [])
      | [], none => .error (.tooShort index record total)
    let (b, items) ← rest.ofItems record total (index + 1) items
    return ((a, b), items)

end Fields

/-- A record: an object, or an array of its fields in order. In an object the members are read in
the order of their keys, so a misshapen field comes before an absent one; other members count for
nothing. -/
def record (name : String) (fields : Fields ρ) : Shape ρ
  | .obj ms => do
    ms.forM fun (k, v) => fields.check k v
    fields.ofMembers ms
  | .arr items => do
    let (r, left) ← fields.ofItems name fields.size 0 items
    if left.isEmpty then return r else .error (.tooLong items.length)
  | j => j.refuse ("struct " ++ name)

end Json

end MillGateway
