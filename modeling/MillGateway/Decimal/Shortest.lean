/-! The shortest decimal of a binary floating-point number: of the decimals that read back as it,
those with the fewest digits, and of these the nearest. -/

namespace MillGateway.Decimal

/-- A positive number `mantissa * 2 ^ exponent` of the 64-bit format. At the foot of a binade the
next number below is half as far away as the next above. -/
structure Binary where
  mantissa : Nat
  exponent : Int
  atFoot : Bool
  deriving DecidableEq, Repr

structure Scaled where
  digits : Nat
  exponent : Int
  deriving DecidableEq, Repr

def Binary.ofBits (bits : UInt64) : Binary :=
  let field := ((bits >>> 52) &&& 0x7FF).toNat
  let fraction := (bits &&& 0xFFFFFFFFFFFFF).toNat
  if field = 0 then ⟨fraction, -1074, false⟩
  else ⟨4503599627370496 + fraction, (field : Int) - 1075, fraction == 0 && 1 < field⟩

/-- The factors `(s, t)` with `x * 2 ^ (q - 2) ≤ d * 10 ^ j ↔ x * s ≤ d * t`. -/
def scales (q j : Int) : Nat × Nat :=
  (Nat.pow 2 (q - 2).toNat * Nat.pow 10 (-j).toNat, Nat.pow 2 (2 - q).toNat * Nat.pow 10 j.toNat)

inductive Tie where
  | toEven
  | up
  deriving DecidableEq, Repr

/-- The multiple of `10 ^ j` nearest to the number, if it reads back as the number. The ends of the
interval belong to it when the mantissa is even. -/
def Binary.onGrid? (b : Binary) (tie : Tie) (j : Int) : Option Scaled :=
  let (s, t) := scales b.exponent j
  let mid := 4 * b.mantissa * s
  let lo := (4 * b.mantissa - if b.atFoot then 1 else 2) * s
  let hi := (4 * b.mantissa + 2) * s
  let reads (d : Nat) : Bool :=
    if b.mantissa % 2 = 0 then lo ≤ d * t && d * t ≤ hi else lo < d * t && d * t < hi
  let d := mid / t
  let below := mid - d * t
  let above := (d + 1) * t - mid
  let upper := above < below || (above == below && (tie == .up || d % 2 == 1))
  match reads d, reads (d + 1) with
  | true, true => some ⟨if upper then d + 1 else d, j⟩
  | true, false => some ⟨d, j⟩
  | false, true => some ⟨d + 1, j⟩
  | false, false => none

def Binary.search (b : Binary) (tie : Tie) (j : Int) : Nat → Scaled
  | 0 => ⟨0, 0⟩
  | n + 1 => match b.onGrid? tie j with
    | some d => d
    | none => b.search tie (j - 1) n

def Binary.shortest (b : Binary) (tie : Tie) : Scaled :=
  b.search tie (((Nat.log2 b.mantissa + b.exponent) * 30103) / 100000 + 1) 20

end MillGateway.Decimal
