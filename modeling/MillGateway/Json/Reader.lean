import MillGateway.Json.Cursor
import MillGateway.Text.Integer
import MillGateway.Word

/-! Reading JSON texts. Numbers without fraction are integers while they fit 64 bits, other numbers
are floating-point; values nest at most 127 deep. -/

namespace MillGateway.Json

open MillGateway.Text (digitValue hexValue?)

/-! ### Numbers -/

/-- Appends digits to a number while it fits 64 bits: the number and how many did. -/
def absorb (n : Nat) : List Char → Nat × Nat
  | [] => (n, 0)
  | c :: cs =>
    if 10 * n + digitValue c ≤ Word.maxUInt64 then
      let (m, k) := absorb (10 * n + digitValue c) cs
      (m, k + 1)
    else (n, 0)

/-- The floating-point number `n * 10 ^ e`, computed with at most one rounding for the integer and
one for each power of ten; `none` if it is too large. -/
def scale? (n : Nat) (e : Int) : Option Float :=
  go n.toUInt64.toFloat e 4
where
  go (x : Float) (e : Int) : Nat → Option Float
    | 0 => some x
    | fuel + 1 =>
      if e.natAbs ≤ 308 then
        let power := Float.ofScientific 1 false e.natAbs
        if 0 ≤ e then
          if (x * power).isInf then none else some (x * power)
        else some (x / power)
      else if x == 0.0 then some x
      else if 0 ≤ e then none
      else go (x / 1e308) (e + 308) fuel

def signed (negative : Bool) (x : Float) : Float :=
  if negative then -x else x

def scaled (place : Cursor) (negative : Bool) (n : Nat) (e : Int) : Step (JsonNumber × Cursor) :=
  match scale? n e with
  | some x => .ok (.float (signed negative x), place)
  | none => .error (place.behind .numberOutOfRange)

def digitsAhead (place : Cursor) : List Char :=
  place.rest.takeWhile Char.isDigit

/-- How many digits behind the number `n` it takes to pass the limit of exponents. -/
def overflowLength (n : Nat) : List Char → Option Nat
  | [] => none
  | c :: cs =>
    if Word.maxInt32 < 10 * n + digitValue c then some 1
    else (overflowLength (10 * n + digitValue c) cs).map (· + 1)

def readExponent (place : Cursor) (negative : Bool) (n : Nat) (e : Int) :
    Step (JsonNumber × Cursor) :=
  let place := place.skip
  let (down, place) := match place.rest with
    | '+' :: _ => (false, place.skip)
    | '-' :: _ => (true, place.skip)
    | _ => (false, place)
  match place.rest with
  | [] => .error (place.behind .endInValue)
  | c :: _ =>
    if !c.isDigit then .error (place.ahead .invalidNumber)
    else
      let ds := digitsAhead place
      let after := place.skipWhile Char.isDigit
      match overflowLength 0 ds with
      | some k =>
        if n ≠ 0 && !down then
          .error ((place.advance k).behind .numberOutOfRange)
        else .ok (.float (signed negative 0.0), after)
      | none =>
        let x := (ds.foldl (fun m c => 10 * m + digitValue c) 0 : Nat)
        scaled after negative n (if down then e - x else e + x)

/-- The number `n * 10 ^ e` with the fraction ahead, whose point comes first. Digits that no longer
fit count for nothing. -/
def readFraction (place : Cursor) (negative : Bool) (n : Nat) (e : Int) :
    Step (JsonNumber × Cursor) :=
  let place := place.skip
  let ds := digitsAhead place
  if ds.isEmpty then
    .error (place.ahead (if place.rest.isEmpty then .endInValue else .invalidNumber))
  else
    let (m, k) := absorb n ds
    let after := place.skipWhile Char.isDigit
    match after.rest with
    | 'e' :: _ | 'E' :: _ => readExponent after negative m (e - k)
    | _ => scaled after negative m (e - k)

def readNumber (place : Cursor) (negative : Bool) : Step (JsonNumber × Cursor) :=
  match place.rest with
  | [] => .error (place.behind .endInValue)
  | '0' :: c :: _ =>
    if c.isDigit then .error (place.skip.ahead .invalidNumber) else tail place.skip 0 0
  | '0' :: [] => tail place.skip 0 0
  | c :: _ =>
    if !c.isDigit then .error (place.ahead .invalidNumber)
    else
      let ds := digitsAhead place
      let (n, k) := absorb 0 ds
      tail (place.skipWhile Char.isDigit) n (ds.length - k)
where
  tail (after : Cursor) (n : Nat) (left : Nat) : Step (JsonNumber × Cursor) :=
    match after.rest with
    | '.' :: _ => readFraction after negative n left
    | 'e' :: _ | 'E' :: _ => readExponent after negative n left
    | _ =>
      if left ≠ 0 then scaled after negative n left
      else if !negative then .ok (.int n, after)
      else if n = 0 || Word.maxInt64 + 1 < n then .ok (.float (-n.toUInt64.toFloat), after)
      else .ok (.int (-(n : Int)), after)

/-! ### Strings -/

def byteCount (s : List Char) : Nat :=
  s.foldl (fun n c => n + c.utf8Size) 0

def readHex (place : Cursor) : Step (Nat × Cursor) :=
  match place.rest with
  | a :: b :: c :: d :: rest =>
    match hexValue? a, hexValue? b, hexValue? c, hexValue? d with
    | some a, some b, some c, some d =>
      .ok (((a * 16 + b) * 16 + c) * 16 + d, ⟨rest, place.line, place.column + 4⟩)
    | _, _, _, _ => .error ((place.advance 4).behind .invalidEscape)
  | rest =>
    .error ((place.advance 4).behind (if 4 ≤ byteCount rest then .invalidEscape else .endInString))

def readUnicodeEscape (place : Cursor) : Step (Char × Cursor) := do
  let (n, place) ← readHex place
  if 0xDC00 ≤ n && n ≤ 0xDFFF then .error (place.behind .loneSurrogate)
  else if n < 0xD800 || 0xDBFF < n then return (Char.ofNat n, place)
  else
    match place.rest with
    | [] => .error (place.behind .endInString)
    | '\\' :: [] => .error (place.skip.behind .endInString)
    | '\\' :: 'u' :: _ =>
      let (m, place) ← readHex place.skip.skip
      if m < 0xDC00 || 0xDFFF < m then .error (place.behind .loneSurrogate)
      else return (Char.ofNat ((n - 0xD800) * 0x400 + (m - 0xDC00) + 0x10000), place)
    | '\\' :: _ => .error (place.skip.ahead .endOfHexEscape)
    | _ => .error (place.ahead .endOfHexEscape)

def shortEscape? (c : Char) : Option Char :=
  match c with
  | '"' => some '"'
  | '\\' => some '\\'
  | '/' => some '/'
  | 'b' => some '\x08'
  | 'f' => some '\x0c'
  | 'n' => some '\n'
  | 'r' => some '\r'
  | 't' => some '\t'
  | _ => none

def readStringFrom (place : Cursor) (acc : List Char) : Nat → Step (String × Cursor)
  | 0 => .error (place.behind .endInString)
  | fuel + 1 =>
    match place.rest with
    | [] => .error (place.behind .endInString)
    | '"' :: _ => .ok (String.ofList acc.reverse, place.skip)
    | '\\' :: [] => .error (place.skip.behind .endInString)
    | '\\' :: 'u' :: _ => do
      let (c, place) ← readUnicodeEscape place.skip.skip
      readStringFrom place (c :: acc) fuel
    | '\\' :: c :: _ =>
      match shortEscape? c with
      | some e => readStringFrom place.skip.skip (e :: acc) fuel
      | none => .error (place.skip.ahead .invalidEscape)
    | c :: _ =>
      if c.toNat < 0x20 then .error (place.ahead .controlCharacter)
      else readStringFrom place.skip (c :: acc) fuel

def readString (place : Cursor) : Step (String × Cursor) :=
  readStringFrom place [] (place.rest.length + 1)

/-! ### Values -/

def readWord (place : Cursor) : List Char → Step (Unit × Cursor)
  | [] => .ok ((), place)
  | c :: cs =>
    match place.rest with
    | [] => .error (place.behind .endInValue)
    | c' :: _ =>
      if c' = c then readWord place.skip cs else .error (place.ahead .expectedIdent)

def nextItem (place : Cursor) (first : Bool) : Step (Bool × Cursor) :=
  let place := place.skipSpace
  match place.rest with
  | [] => .error (place.ahead .endInList)
  | ']' :: _ => .ok (false, place)
  | c :: _ =>
    if first then .ok (true, place)
    else if c ≠ ',' then .error (place.ahead .expectedListCommaOrEnd)
    else
      let place := place.skip.skipSpace
      match place.rest with
      | [] => .error (place.ahead .endInValue)
      | ']' :: _ => .error (place.ahead .trailingComma)
      | _ => .ok (true, place)

def readItems (item : Cursor → Step (Json × Cursor)) (place : Cursor) (first : Bool) :
    Nat → Step (List Json × Cursor)
  | 0 => .error (place.behind .endInList)
  | fuel + 1 => do
    let (more, place) ← nextItem place first
    if !more then return ([], place.skip)
    let (v, place) ← item place
    let (vs, place) ← readItems item place false fuel
    return (v :: vs, place)

def nextKey (place : Cursor) (first : Bool) : Step (Bool × Cursor) :=
  let place := place.skipSpace
  match place.rest with
  | [] => .error (place.ahead .endInObject)
  | '\x7d' :: _ => .ok (false, place)
  | c :: _ =>
    if first then
      if c = '"' then .ok (true, place) else .error (place.ahead .keyNotString)
    else if c ≠ ',' then .error (place.ahead .expectedObjectCommaOrEnd)
    else
      let place := place.skip.skipSpace
      match place.rest with
      | '"' :: _ => .ok (true, place)
      | '\x7d' :: _ => .error (place.ahead .trailingComma)
      | _ :: _ => .error (place.ahead .keyNotString)
      | [] => .error (place.ahead .endInValue)

def readColon (place : Cursor) : Step Cursor :=
  let place := place.skipSpace
  match place.rest with
  | ':' :: _ => .ok place.skip
  | _ :: _ => .error (place.ahead .expectedColon)
  | [] => .error (place.ahead .endInObject)

def readMembers (item : Cursor → Step (Json × Cursor)) (place : Cursor) (first : Bool) :
    Nat → Step (List (String × Json) × Cursor)
  | 0 => .error (place.behind .endInObject)
  | fuel + 1 => do
    let (more, place) ← nextKey place first
    if !more then return ([], place.skip)
    let (k, place) ← readString place.skip
    let place ← readColon place
    let (v, place) ← item place
    let (ms, place) ← readMembers item place false fuel
    return ((k, v) :: ms, place)

def readValue : (depth : Nat) → Cursor → Step (Json × Cursor)
  | 0, place => .error (place.ahead .tooDeep)
  | depth + 1, place => do
    let place := place.skipSpace
    match place.rest with
    | [] => .error (place.ahead .endInValue)
    | 'n' :: _ => return (.null, (← readWord place.skip ['u', 'l', 'l']).2)
    | 't' :: _ => return (.bool true, (← readWord place.skip ['r', 'u', 'e']).2)
    | 'f' :: _ => return (.bool false, (← readWord place.skip ['a', 'l', 's', 'e']).2)
    | '-' :: _ =>
      let (n, place) ← readNumber place.skip true
      return (.num n, place)
    | '"' :: _ =>
      let (s, place) ← readString place.skip
      return (.str s, place)
    | '[' :: _ =>
      if depth = 0 then .error (place.ahead .tooDeep)
      else
        let (vs, place) ← readItems (readValue depth) place.skip true (place.rest.length + 1)
        return (.arr vs, place)
    | '\x7b' :: _ =>
      if depth = 0 then .error (place.ahead .tooDeep)
      else
        let (ms, place) ← readMembers (readValue depth) place.skip true (place.rest.length + 1)
        return (ofMembers ms, place)
    | c :: _ =>
      if c.isDigit then
        let (n, place) ← readNumber place false
        return (.num n, place)
      else .error (place.ahead .expectedValue)

def depthLimit : Nat :=
  128

def readEnd (place : Cursor) : Step Unit :=
  let place := place.skipSpace
  if place.rest.isEmpty then .ok () else .error (place.ahead .trailingCharacters)

def read (s : String) : Step Json := do
  let (v, place) ← readValue depthLimit (.start s)
  readEnd place
  return v

end MillGateway.Json
