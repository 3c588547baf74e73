import MillGateway.Json.Basic
import MillGateway.Decimal.Layout

/-! The compact text of a JSON value: no blanks, members in the order of their keys, and only
quotes, backslashes and control characters escaped. -/

namespace MillGateway

/-- The text of a number; one that is not finite has none and is written as `null`. -/
def JsonNumber.text : JsonNumber → String
  | .int n => toString n
  | .float x => if x.isFinite then Decimal.Layout.document.text x else "null"

namespace Json

def escapeChar (c : Char) : List Char :=
  match c with
  | '"' => ['\\', '"']
  | '\\' => ['\\', '\\']
  | '\x08' => ['\\', 'b']
  | '\x0c' => ['\\', 'f']
  | '\n' => ['\\', 'n']
  | '\r' => ['\\', 'r']
  | '\t' => ['\\', 't']
  | c =>
    if c.toNat < 0x20 then
      ['\\', 'u', '0', '0', Nat.digitChar (c.toNat / 16), Nat.digitChar (c.toNat % 16)]
    else [c]

def quoted (s : String) : List Char :=
  '"' :: s.toList.flatMap escapeChar ++ ['"']

mutual

def chars : Json → List Char
  | .null => "null".toList
  | .bool b => (if b then "true" else "false").toList
  | .num n => n.text.toList
  | .str s => quoted s
  | .arr items => '[' :: itemChars items ++ [']']
  | .obj members => '\x7b' :: memberChars members ++ ['\x7d']

def itemChars : List Json → List Char
  | [] => []
  | [v] => chars v
  | v :: vs => chars v ++ ',' :: itemChars vs

def memberChars : List (String × Json) → List Char
  | [] => []
  | [(k, v)] => quoted k ++ ':' :: chars v
  | (k, v) :: ms => quoted k ++ ':' :: chars v ++ ',' :: memberChars ms

end

def text (j : Json) : String :=
  String.ofList j.chars

end Json

end MillGateway
