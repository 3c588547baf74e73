import MillGateway.Text.Integer
import MillGateway.Toml.Scan

/-! Quoted strings: with escapes between quotation marks, without them between apostrophes, and
either on one line or, between three marks, on many. -/

namespace MillGateway.Toml

open MillGateway.Text (hexValue?)

def charOfHex? (ds : List Char) : Option Char := do
  let n ← ds.foldlM (fun n c => (hexValue? c).map (16 * n + ·)) 0
  if n.isValidChar then some (Char.ofNat n) else none

def readEscape : List Char → Option (Char × List Char)
  | 'b' :: r => some ('\x08', r)
  | 't' :: r => some ('\t', r)
  | 'n' :: r => some ('\n', r)
  | 'f' :: r => some ('\x0c', r)
  | 'r' :: r => some ('\r', r)
  | '"' :: r => some ('"', r)
  | '\\' :: r => some ('\\', r)
  | 'u' :: r => hex 4 r
  | 'U' :: r => hex 8 r
  | _ => none
where
  hex (n : Nat) (r : List Char) : Option (Char × List Char) :=
    if r.length < n then none else (charOfHex? (r.take n)).map (·, r.drop n)

def skipBreak? (r : List Char) : Option (List Char) :=
  match r.dropWhile isSpace with
  | '\n' :: r => some (blanks r)
  | '\r' :: '\n' :: r => some (blanks r)
  | _ => none
where
  blanks : List Char → List Char
    | '\r' :: '\n' :: r => blanks r
    | c :: r => if isSpace c || c == '\n' then blanks r else c :: r
    | [] => []

structure QuoteStyle where
  mark : Char
  escapes : Bool

def basic : QuoteStyle := ⟨'"', true⟩

def literal : QuoteStyle := ⟨'\'', false⟩

def readLine (style : QuoteStyle) (acc : List Char) :
    Nat → List Char → Option (List Char × List Char)
  | 0, _ => none
  | _ + 1, [] => none
  | n + 1, c :: r =>
    if c = style.mark then some (acc.reverse, r)
    else if c = '\\' && style.escapes then do
      let (c, r) ← readEscape r
      readLine style (c :: acc) n r
    else if isPlain c then readLine style (c :: acc) n r
    else none

/-- A string on many lines behind its opening marks, its characters so far given backwards. Up to
two marks may stand before the closing three. -/
def readLines (style : QuoteStyle) (acc : List Char) :
    Nat → List Char → Option (List Char × List Char)
  | 0, _ => none
  | _ + 1, [] => none
  | n + 1, c :: r =>
    if c = style.mark then
      let marks := ((c :: r).takeWhile (· == style.mark)).length
      if marks < 3 then readLines style (c :: acc) n r
      else
        let extra := min marks 5 - 3
        some ((List.replicate extra c ++ acc).reverse, (c :: r).drop (extra + 3))
    else if c = '\\' && style.escapes then
      match skipBreak? r with
      | some r => readLines style acc n r
      | none => do
        let (c, r) ← readEscape r
        readLines style (c :: acc) n r
    else if c = '\n' || isPlain c then readLines style (c :: acc) n r
    else if c = '\r' && r.head? == some '\n' then readLines style acc n r
    else none

namespace Scan

def lineString (style : QuoteStyle) : Scan String := do
  char style.mark
  let cs ← get
  let (s, rest) ← readLine style [] (cs.length + 1) cs
  set rest
  return String.ofList s

def string (style : QuoteStyle) : Scan String := do
  if ← accept [style.mark, style.mark, style.mark] then
    discard acceptNewline
    let cs ← get
    let (s, rest) ← readLines style [] (cs.length + 1) cs
    set rest
    return String.ofList s
  else lineString style

end Scan

end MillGateway.Toml
