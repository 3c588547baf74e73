/-! Reading a text from the left: steps that take characters off its front, or fail. -/

namespace MillGateway.Toml

abbrev Scan := StateT (List Char) Option

namespace Scan

def peek? : Scan (Option Char) := do
  return (← get).head?

def left : Scan Nat := do
  return (← get).length

def satisfy (p : Char → Bool) : Scan Char := do
  match ← get with
  | c :: rest => if p c then set rest; return c else failure
  | [] => failure

def char (c : Char) : Scan Unit :=
  discard (satisfy (· == c))

def word : List Char → Scan Unit
  | [] => return ()
  | c :: cs => do char c; word cs

def takeWhile (p : Char → Bool) : Scan (List Char) := do
  let cs ← get
  set (cs.dropWhile p)
  return cs.takeWhile p

def takeSome (p : Char → Bool) : Scan (List Char) := do
  let c ← satisfy p
  return c :: (← takeWhile p)

def count (p : Char → Bool) : (n : Nat) → Scan (List Char)
  | 0 => return []
  | n + 1 => do
    let c ← satisfy p
    return c :: (← count p n)

def accept (s : List Char) : Scan Bool := do
  let cs ← get
  if s.isPrefixOf cs then set (cs.drop s.length); return true else return false

end Scan

/-! ### Blanks -/

def isSpace (c : Char) : Bool :=
  c == ' ' || c == '\t'

def isControl (c : Char) : Bool :=
  c.toNat < 0x20 || c.toNat == 0x7F

def isPlain (c : Char) : Bool :=
  c == '\t' || !isControl c

/-- The text behind spaces, comments and line breaks. A comment that is not well-formed is left
where it breaks. -/
def dropGap (inComment : Bool) : List Char → List Char
  | '\n' :: r => dropGap false r
  | '\r' :: '\n' :: r => dropGap false r
  | c :: r =>
    if inComment then (if isPlain c then dropGap true r else c :: r)
    else if c = '#' then dropGap true r
    else if isSpace c then dropGap false r
    else c :: r
  | [] => []

namespace Scan

def spaces : Scan Unit :=
  discard (takeWhile isSpace)

def acceptNewline : Scan Bool := do
  if ← accept ['\n'] then return true else accept ['\r', '\n']

def comment : Scan Unit := do
  if ← accept ['#'] then discard (takeWhile isPlain)

def lineEnd : Scan Unit := do
  spaces
  comment
  if (← peek?).isNone then return ()
  if ← acceptNewline then return () else failure

def gap : Scan Unit :=
  modify (dropGap false)

end Scan

end MillGateway.Toml
