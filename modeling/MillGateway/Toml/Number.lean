import MillGateway.Text.Integer
import MillGateway.Toml.Basic
import MillGateway.Toml.Scan
import MillGateway.Word

/-! Numbers, dates and times. Digits may have single underscores between them. -/

namespace MillGateway.Toml.Scan

open MillGateway.Text (hexValue?)

/-! ### Digits -/

def spanDigits (p : Char → Bool) : List Char → List Char × List Char
  | '_' :: d :: r =>
    if p d then let (ds, r) := spanDigits p r; (d :: ds, r) else ([], '_' :: d :: r)
  | c :: r => if p c then let (ds, r) := spanDigits p r; (c :: ds, r) else ([], c :: r)
  | [] => ([], [])

def digits (p : Char → Bool) : Scan (List Char) := do
  let d ← satisfy p
  let (ds, rest) := spanDigits p (← get)
  set rest
  return d :: ds

def valueOf (base : Nat) (ds : List Char) : Nat :=
  ds.foldl (fun n c => base * n + (hexValue? c).getD 0) 0

def decimalDigits : Scan (List Char) := do
  if ← accept ['0'] then return ['0'] else digits Char.isDigit

def sign : Scan Bool := do
  if ← accept ['-'] then return true
  discard (accept ['+'])
  return false

/-! ### Numbers -/

def inRange (n : Int) : Scan Value :=
  if Word.minInt64 ≤ n && n ≤ Word.maxInt64 then return .integer n else failure

def scaled (ds : List Char) (e : Int) : Float :=
  let ds := ds.dropWhile (· == '0')
  if ds.isEmpty then 0
  else if 400 < e + ds.length then 1 / 0
  else if e + ds.length < -400 then 0
  else Float.ofScientific (valueOf 10 ds) (e < 0) e.natAbs

def exponent : Scan Int := do
  if (← accept ['e']) || (← accept ['E']) then
    let down ← sign
    let n := valueOf 10 (← digits Char.isDigit)
    return if down then -n else n
  else return 0

/-- A decimal number. A positive one that is too large for a floating-point number is refused. -/
def decimal : Scan Value := do
  let negative ← sign
  let whole ← decimalDigits
  match ← peek? with
  | some '.' =>
    char '.'
    let fraction ← digits Char.isDigit
    float negative (whole ++ fraction) ((← exponent) - fraction.length)
  | some 'e' | some 'E' => float negative whole (← exponent)
  | _ =>
    let n := valueOf 10 whole
    inRange (if negative then -n else n)
where
  float (negative : Bool) (ds : List Char) (e : Int) : Scan Value := do
    let x := scaled ds e
    if negative then return .float (-x)
    else if x.isInf then failure
    else return .float x

def special : Scan Value := do
  let negative ← sign
  let x : Float ←
    (do word ['i', 'n', 'f']; return 1 / 0) <|> (do word ['n', 'a', 'n']; return 0 / 0)
  return .float (if negative then -x else x)

def isHexDigit (c : Char) : Bool :=
  (hexValue? c).isSome

def isOctalDigit (c : Char) : Bool :=
  '0' ≤ c && c ≤ '7'

def isBinaryDigit (c : Char) : Bool :=
  c == '0' || c == '1'

/-! ### Dates and times -/

def fixed (size lo hi : Nat) : Scan Nat := do
  let n := valueOf 10 (← count Char.isDigit size)
  if lo ≤ n && n ≤ hi then return n else failure

def daysIn (year month : Nat) : Nat :=
  if month = 2 then
    if year % 4 = 0 && (year % 100 ≠ 0 || year % 400 = 0) then 29 else 28
  else if month ∈ [4, 6, 9, 11] then 30
  else 31

def date : Scan Date := do
  let year ← fixed 4 0 9999
  char '-'
  let month ← fixed 2 1 12
  char '-'
  let day ← fixed 2 1 (daysIn year month)
  return ⟨year, month, day⟩

def time : Scan Time := do
  let hour ← fixed 2 0 23
  char ':'
  let minute ← fixed 2 0 59
  char ':'
  let second ← fixed 2 0 60
  let fraction ← if ← accept ['.'] then takeSome Char.isDigit else pure []
  return ⟨hour, minute, second, fraction⟩

def offset? : Scan (Option Int) := do
  if (← accept ['Z']) || (← accept ['z']) then return some 0
  match ← peek? with
  | some '+' | some '-' =>
    let negative ← sign
    let hour ← fixed 2 0 23
    char ':'
    let n : Int := 60 * hour + (← fixed 2 0 59)
    return some (if negative then -n else n)
  | _ => return none

def timeBehind : Scan (Time × Option Int) := do
  discard (satisfy fun c => c == 'T' || c == 't' || c == ' ')
  let t ← time
  return (t, ← offset?)

def moment : Scan Moment :=
  (do
    let d ← date
    match ← optional timeBehind with
    | some (t, o?) => return ⟨some d, some t, o?⟩
    | none => return ⟨some d, none, none⟩)
  <|> (do return ⟨none, some (← time), none⟩)

def number : Scan Value := do
  match ← get with
  | '0' :: 'x' :: rest => set rest; inRange (valueOf 16 (← digits isHexDigit))
  | '0' :: 'o' :: rest => set rest; inRange (valueOf 8 (← digits isOctalDigit))
  | '0' :: 'b' :: rest => set rest; inRange (valueOf 2 (← digits isBinaryDigit))
  | _ => (Value.moment <$> moment) <|> decimal <|> special

end MillGateway.Toml.Scan
