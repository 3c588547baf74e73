/-! White space of the Unicode property, and how a text is cut at it: trimmed ends and words. -/

namespace MillGateway.Text

/-- The characters with the Unicode property `White_Space`. -/
def isBlank (c : Char) : Bool :=
  let n := c.toNat
  (9 ≤ n && n ≤ 13) || n == 0x20 || n == 0x85 || n == 0xA0 || n == 0x1680 ||
    (0x2000 ≤ n && n ≤ 0x200A) || n == 0x2028 || n == 0x2029 || n == 0x202F ||
    n == 0x205F || n == 0x3000

def trimStart (s : List Char) : List Char :=
  s.dropWhile isBlank

def trimEnd (s : List Char) : List Char :=
  (s.reverse.dropWhile isBlank).reverse

def trim (s : List Char) : List Char :=
  trimEnd (trimStart s)

def consHead (c : Char) : List (List Char) → List (List Char)
  | [] => [[c]]
  | w :: ws => (c :: w) :: ws

def pieces (sep : Char → Bool) : List Char → List (List Char)
  | [] => [[]]
  | c :: r => if sep c then [] :: pieces sep r else consHead c (pieces sep r)

def words (s : List Char) : List (List Char) :=
  (pieces isBlank s).filter (!·.isEmpty)

def cutAt? (mark : List Char) : List Char → Option (List Char × List Char)
  | [] => if mark.isEmpty then some ([], []) else none
  | c :: r =>
    if mark.isPrefixOf (c :: r) then some ([], (c :: r).drop mark.length)
    else (cutAt? mark r).map fun (a, b) => (c :: a, b)

end MillGateway.Text
