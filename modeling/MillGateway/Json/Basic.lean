/-! JSON values. The members of an object are kept in the order of their keys, each key once. -/

namespace MillGateway

inductive JsonNumber where
  | int (n : Int)
  | float (x : Float)
  deriving Repr, Inhabited

inductive Json where
  | null
  | bool (b : Bool)
  | num (n : JsonNumber)
  | str (s : String)
  | arr (items : List Json)
  | obj (members : List (String × Json))
  deriving Repr, Inhabited

namespace Json

abbrev Members := List (String × Json)

/-- Puts a member in its place; an older member of the same key gives way. -/
def Members.insert (k : String) (v : Json) : Members → Members
  | [] => [(k, v)]
  | (k', v') :: ms =>
    if k < k' then (k, v) :: (k', v') :: ms
    else if k = k' then (k, v) :: ms
    else (k', v') :: Members.insert k v ms

def ofMembers (ms : List (String × Json)) : Json :=
  .obj (ms.foldl (fun acc (k, v) => Members.insert k v acc) [])

def get? (j : Json) (k : String) : Option Json :=
  match j with
  | .obj ms => ms.lookup k
  | _ => none

def ofInt (n : Int) : Json :=
  .num (.int n)

def ofFloat (x : Float) : Json :=
  .num (.float x)

def ofText? (s? : Option String) : Json :=
  s?.elim .null .str

end Json

end MillGateway
