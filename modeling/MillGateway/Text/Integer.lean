/-! Digits, and integers written in decimal: an optional sign and at least one digit, nothing
else. -/

namespace MillGateway.Text

def digitValue (c : Char) : Nat :=
  c.toNat - '0'.toNat

def hexValue? (c : Char) : Option Nat :=
  if c.isDigit then some (digitValue c)
  else if 'a' ≤ c && c ≤ 'f' then some (c.toNat - 'a'.toNat + 10)
  else if 'A' ≤ c && c ≤ 'F' then some (c.toNat - 'A'.toNat + 10)
  else none

def readDigits? (s : List Char) : Option Nat :=
  if s.isEmpty then none
  else s.foldlM (fun n c => if c.isDigit then some (10 * n + digitValue c) else none) 0

/-- A natural number with an optional plus sign, at most `bound`. -/
def readNat? (bound : Nat) (s : List Char) : Option Nat :=
  (readDigits? (match s with | '+' :: r => r | s => s)).filter (· ≤ bound)

def readInt? (lo hi : Int) (s : List Char) : Option Int :=
  let n? : Option Int := match s with
    | '+' :: r => (readDigits? r).map Int.ofNat
    | '-' :: r => (readDigits? r).map fun n => -Int.ofNat n
    | s => (readDigits? s).map Int.ofNat
  n?.filter fun n => lo ≤ n && n ≤ hi

end MillGateway.Text
