import MillGateway.Json.Reader

/-! Passing over values that nobody wants, and refusing those of another kind than expected. A value
that is passed over may nest as deep as it likes. -/

namespace MillGateway.Json

/-! ### Passing over -/

def skipDigits (place : Cursor) : Step Cursor :=
  match place.rest with
  | c :: _ =>
    if c.isDigit then .ok (place.skipWhile Char.isDigit) else .error (place.ahead .invalidNumber)
  | [] => .error (place.ahead .invalidNumber)

def skipExponent (place : Cursor) : Step Cursor :=
  let place := place.skip
  match place.rest with
  | '+' :: _ | '-' :: _ => skipDigits place.skip
  | _ => skipDigits place

def skipNumber (place : Cursor) : Step Cursor := do
  let place ← match place.rest with
    | '0' :: c :: _ =>
      if c.isDigit then .error (place.skip.ahead .invalidNumber) else pure place.skip
    | _ => skipDigits place
  match place.rest with
  | '.' :: _ =>
    let place ← skipDigits place.skip
    match place.rest with
    | 'e' :: _ | 'E' :: _ => skipExponent place
    | _ => return place
  | 'e' :: _ | 'E' :: _ => skipExponent place
  | _ => return place

def skipString (place : Cursor) : Step Cursor :=
  go place (place.rest.length + 1)
where
  go (place : Cursor) : Nat → Step Cursor
    | 0 => .error (place.behind .endInString)
    | fuel + 1 =>
      match place.rest with
      | [] => .error (place.behind .endInString)
      | '"' :: _ => .ok place.skip
      | '\\' :: [] => .error (place.skip.behind .endInString)
      | '\\' :: 'u' :: _ => do
        let (_, place) ← readHex place.skip.skip
        go place fuel
      | '\\' :: c :: _ =>
        if (shortEscape? c).isSome then go place.skip.skip fuel
        else .error (place.skip.ahead .invalidEscape)
      | c :: _ =>
        if c.toNat < 0x20 then .error (place.behind .controlCharacter) else go place.skip fuel

def skipLeaf (place : Cursor) : Step Cursor :=
  match place.rest with
  | 'n' :: _ => (·.2) <$> readWord place.skip ['u', 'l', 'l']
  | 't' :: _ => (·.2) <$> readWord place.skip ['r', 'u', 'e']
  | 'f' :: _ => (·.2) <$> readWord place.skip ['a', 'l', 's', 'e']
  | '-' :: _ => skipNumber place.skip
  | '"' :: _ => skipString place.skip
  | c :: _ => if c.isDigit then skipNumber place else .error (place.ahead .expectedValue)
  | [] => .error (place.ahead .endInValue)

inductive Bracket where
  | list
  | object
  deriving DecidableEq, Repr

namespace Bracket

def closing : Bracket → Char
  | .list => ']'
  | .object => '\x7d'

def unclosed : Bracket → SyntaxError
  | .list => .endInList
  | .object => .endInObject

def expected : Bracket → SyntaxError
  | .list => .expectedListCommaOrEnd
  | .object => .expectedObjectCommaOrEnd

end Bracket

/-- Closes the open brackets that close here, the innermost first; `held` tells whether something
stands in it already. What is left open goes on behind its comma. -/
def close : List Bracket → (held : Bool) → Cursor → Step (List Bracket × Cursor)
  | [], _, place => .ok ([], place)
  | b :: bs, held, place =>
    let place := place.skipSpace
    match place.rest with
    | [] => .error (place.ahead b.unclosed)
    | c :: _ =>
      if c = ',' && held then .ok (b :: bs, place.skip)
      else if c = b.closing then close bs true place.skip
      else if held then .error (place.ahead b.expected)
      else .ok (b :: bs, place)

def skipKey (place : Cursor) : Step Cursor := do
  let place := place.skipSpace
  match place.rest with
  | '"' :: _ => readColon (← skipString place.skip)
  | _ :: _ => .error (place.ahead .keyNotString)
  | [] => .error (place.ahead .endInObject)

def skipOpen (opened : List Bracket) (place : Cursor) : Nat → Step Cursor
  | 0 => .error (place.behind .endInValue)
  | fuel + 1 => do
    let place := place.skipSpace
    let (opened, place) ← match place.rest with
      | '[' :: _ => close (.list :: opened) false place.skip
      | '\x7b' :: _ => close (.object :: opened) false place.skip
      | _ => close opened true (← skipLeaf place)
    match opened with
    | [] => return place
    | .list :: _ => skipOpen opened place fuel
    | .object :: _ => skipOpen opened (← skipKey place) fuel

def skipValue (place : Cursor) : Step Cursor :=
  skipOpen [] place (place.rest.length + 1)

/-! ### Refusing -/

def refuseAhead (place : Cursor) (expected : String) : Step α :=
  match place.rest with
  | 'n' :: _ => do refused .null (← readWord place.skip ['u', 'l', 'l']).2
  | 't' :: _ => do refused (.bool true) (← readWord place.skip ['r', 'u', 'e']).2
  | 'f' :: _ => do refused (.bool false) (← readWord place.skip ['a', 'l', 's', 'e']).2
  | '-' :: _ => do
    let (n, place) ← readNumber place.skip true
    refused (.num n) place
  | '"' :: _ => do
    let (s, place) ← readString place.skip
    refused (.str s) place
  | '[' :: _ => refused .seq place
  | '\x7b' :: _ => refused .map place
  | c :: _ =>
    if c.isDigit then do
      let (n, place) ← readNumber place false
      refused (.num n) place
    else .error (place.ahead .expectedValue)
  | [] => .error (place.ahead .endInValue)
where
  refused (found : Found) (place : Cursor) : Step α :=
    .error (place.misshapen (.unexpected found expected))

end MillGateway.Json
