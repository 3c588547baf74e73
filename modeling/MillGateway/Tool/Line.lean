import MillGateway.Text.LetterCase
import MillGateway.Tool.Record

/-! The line of a tool in the table, such as `T1 P1 D3 ;flat 3mm`: fields as words that start with
their symbol, and after a semicolon the comment, which is read in small letters. -/

namespace MillGateway.Tool.Record

def body (line : List Char) : List Char :=
  line.takeWhile (· != ';')

def remark? (line : List Char) : Option (List Char) :=
  match line.dropWhile (· != ';') with
  | _ :: r => some r
  | [] => none

def normComment (s : List Char) : List Char :=
  Text.lower (Text.trimEnd s)

def takeWord (r : Record) : List Char → Record
  | [] => r
  | c :: v =>
    match Key.ofSymbol? c with
    | none | some .comment => r
    | some k => if v.isEmpty || (r.get k).isSome then r else r.set k (String.ofList v)

/-- The record that a line writes. Words that name no field or carry no value count for nothing. -/
def ofChars (line : List Char) : Record :=
  let r := (Text.words (body line)).foldl takeWord empty
  match remark? line with
  | some s => r.set .comment (String.ofList (normComment s))
  | none => r

def ofLine (line : String) : Record :=
  ofChars line.toList

def fieldChars : Key × String → List Char
  | (.comment, v) => ';' :: v.toList
  | (k, v) => k.symbol :: v.toList ++ [' ']

def lineChars (r : Record) : List Char :=
  r.fields.flatMap fieldChars

def line (r : Record) : String :=
  String.ofList r.lineChars

end MillGateway.Tool.Record
