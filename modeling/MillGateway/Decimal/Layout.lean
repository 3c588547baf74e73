import MillGateway.Decimal.Shortest

/-! The text of a floating-point number: its shortest decimal, written positionally or in
scientific form as a layout says. -/

namespace MillGateway.Decimal

/-- How numbers are laid out: the least power of ten that is written positionally, whether a
positive exponent carries a sign, and where a half goes. From `10 ^ 16` on all are written in
scientific form. -/
structure Layout where
  leastPositional : Int
  plusSign : Bool
  tie : Tie
  deriving DecidableEq, Repr

def Layout.document : Layout := ⟨-5, true, .toEven⟩

def Layout.display : Layout := ⟨-4, false, .up⟩

def Layout.write (l : Layout) (ds : List Char) (e : Int) : List Char :=
  if l.leastPositional ≤ e && e < 16 then
    if e < 0 then
      ['0', '.'] ++ List.replicate ((-e).toNat - 1) '0' ++ ds
    else
      let n := e.toNat + 1
      let whole := ds.take n ++ List.replicate (n - ds.length) '0'
      let rest := ds.drop n
      whole ++ '.' :: (if rest.isEmpty then ['0'] else rest)
  else
    let head := match ds with
      | d :: d' :: r => d :: '.' :: d' :: r
      | ds => ds
    let sign := if e < 0 then ['-'] else if l.plusSign then ['+'] else []
    head ++ 'e' :: sign ++ (toString e.natAbs).toList

def Layout.text (l : Layout) (x : Float) : String :=
  if x.isNaN then "NaN"
  else
    let bits := x.toBits
    let sign := if bits >>> 63 == 1 then ['-'] else []
    let body :=
      if x.isInf then ['i', 'n', 'f']
      else if bits &&& 0x7FFFFFFFFFFFFFFF == 0 then ['0', '.', '0']
      else
        let s := (Binary.ofBits bits).shortest l.tie
        let ds := (toString s.digits).toList
        l.write ds (s.exponent + ds.length - 1)
    String.ofList (sign ++ body)

end MillGateway.Decimal
