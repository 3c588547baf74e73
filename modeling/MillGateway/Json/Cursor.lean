import MillGateway.Json.Shape

/-! A place in a text that is read from the left, and the failures that name such a place.
Columns count the bytes of the line before the place. -/

namespace MillGateway.Json

inductive SyntaxError where
  | endInList
  | endInObject
  | endInString
  | endInValue
  | expectedColon
  | expectedListCommaOrEnd
  | expectedObjectCommaOrEnd
  | expectedIdent
  | expectedValue
  | invalidEscape
  | invalidNumber
  | numberOutOfRange
  | controlCharacter
  | keyNotString
  | loneSurrogate
  | endOfHexEscape
  | trailingComma
  | trailingCharacters
  | tooDeep
  deriving DecidableEq, Repr

def SyntaxError.message : SyntaxError → String
  | .endInList => "EOF while parsing a list"
  | .endInObject => "EOF while parsing an object"
  | .endInString => "EOF while parsing a string"
  | .endInValue => "EOF while parsing a value"
  | .expectedColon => "expected `:`"
  | .expectedListCommaOrEnd => "expected `,` or `]`"
  | .expectedObjectCommaOrEnd => "expected `,` or `\x7d`"
  | .expectedIdent => "expected ident"
  | .expectedValue => "expected value"
  | .invalidEscape => "invalid escape"
  | .invalidNumber => "invalid number"
  | .numberOutOfRange => "number out of range"
  | .controlCharacter => "control character (\\u0000-\\u001F) found while parsing a string"
  | .keyNotString => "key must be a string"
  | .loneSurrogate => "lone leading surrogate in hex escape"
  | .endOfHexEscape => "unexpected end of hex escape"
  | .trailingComma => "trailing comma"
  | .trailingCharacters => "trailing characters"
  | .tooDeep => "recursion limit exceeded"

inductive Fault where
  | malformed (e : SyntaxError)
  | misshapen (e : ShapeError)
  deriving Repr

def Fault.message : Fault → String
  | .malformed e => e.message
  | .misshapen e => e.message

structure ReadError where
  fault : Fault
  line : Nat
  column : Nat
  deriving Repr

def ReadError.message (e : ReadError) : String :=
  e.fault.message ++ " at line " ++ toString e.line ++ " column " ++ toString e.column

structure Cursor where
  rest : List Char
  line : Nat
  column : Nat
  deriving Repr

namespace Cursor

def start (s : String) : Cursor :=
  ⟨s.toList, 1, 0⟩

def step (place : Cursor) (c : Char) (rest : List Char) : Cursor :=
  if c = '\n' then ⟨rest, place.line + 1, 0⟩ else ⟨rest, place.line, place.column + c.utf8Size⟩

/-- The place behind the next `n` bytes, which may end inside a character, or at the end. -/
def advance (place : Cursor) (n : Nat) : Cursor :=
  go place n place.rest
where
  go (place : Cursor) (n : Nat) : List Char → Cursor
    | [] => place
    | c :: rest =>
      if n < c.utf8Size then { place with column := place.column + n }
      else go (place.step c rest) (n - c.utf8Size) rest

def behind (place : Cursor) (e : SyntaxError) : ReadError :=
  ⟨.malformed e, place.line, place.column⟩

def ahead (place : Cursor) (e : SyntaxError) : ReadError :=
  match place.rest with
  | [] => place.behind e
  | '\n' :: _ => ⟨.malformed e, place.line + 1, 0⟩
  | _ :: _ => ⟨.malformed e, place.line, place.column + 1⟩

def misshapen (place : Cursor) (e : ShapeError) : ReadError :=
  ⟨.misshapen e, place.line, place.column⟩

def skip (place : Cursor) : Cursor :=
  match place.rest with
  | [] => place
  | c :: rest => place.step c rest

def skipWhile (p : Char → Bool) (place : Cursor) : Cursor :=
  go place place.rest
where
  go (place : Cursor) : List Char → Cursor
    | [] => place
    | c :: rest => if p c then go (place.step c rest) rest else place

def isSpace (c : Char) : Bool :=
  c == ' ' || c == '\n' || c == '\t' || c == '\r'

def skipSpace (place : Cursor) : Cursor :=
  place.skipWhile isSpace

end Cursor

abbrev Step := Except ReadError

end MillGateway.Json
