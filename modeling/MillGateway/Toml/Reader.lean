import MillGateway.Toml.Number
import MillGateway.Toml.Quote

/-! Reading TOML texts. -/

namespace MillGateway.Toml

namespace Scan

/-! ### Keys -/

def isBare (c : Char) : Bool :=
  c.isAlphanum || c == '-' || c == '_'

def plainKey : Scan String := do
  match ← peek? with
  | some '"' => lineString basic
  | some '\'' => lineString literal
  | _ => return String.ofList (← takeSome isBare)

def maxKeys : Nat := 79

def key : Scan (List String) :=
  go maxKeys
where
  go : Nat → Scan (List String)
    | 0 => failure
    | n + 1 => do
      spaces
      let k ← plainKey
      spaces
      if ← accept ['.'] then return k :: (← go n) else return [k]

/-! ### Values -/

def items (item : Scan Value) : Nat → Scan (List Value)
  | 0 => failure
  | n + 1 => do
    gap
    if ← accept [']'] then return []
    let v ← item
    gap
    if ← accept [','] then return v :: (← items item n)
    char ']'
    return [v]

def members (item : Scan Value) (ms : Members) : Nat → Scan Members
  | 0 => failure
  | n + 1 => do
    let k ← key
    char '='
    spaces
    let ms ← ms.addDotted (← item) k
    spaces
    if ← accept [','] then members item ms n
    else
      char '\x7d'
      return ms

def scalar : Scan Value := do
  match ← peek? with
  | some '"' => return .string (← string basic)
  | some '\'' => return .string (← string literal)
  | some 't' => word ['t', 'r', 'u', 'e']; return .boolean true
  | some 'f' => word ['f', 'a', 'l', 's', 'e']; return .boolean false
  | _ => number

def value : (depth : Nat) → Scan Value
  | 0 => scalar
  | depth + 1 => do
    match ← peek? with
    | some '[' =>
      char '['
      return .array (← items (value depth) ((← left) + 1))
    | some '\x7b' =>
      char '\x7b'
      spaces
      if ← accept ['\x7d'] then return .table .inline []
      return .table .inline (← members (value depth) [] ((← left) + 1))
    | _ => scalar

def maxDepth : Nat := 79

/-! ### Sections -/

def header : Scan Header := do
  if ← accept ['['] then
    let path ← key
    word [']', ']']
    return .oneOf path
  else
    let path ← key
    char ']'
    return .only path

def entries : Nat → Scan (List Entry)
  | 0 => failure
  | n + 1 => do
    spaces
    match ← peek? with
    | none | some '[' => return []
    | some '#' | some '\n' | some '\r' => lineEnd; entries n
    | _ =>
      let k ← key
      char '='
      spaces
      let v ← value maxDepth
      lineEnd
      return ⟨k, v⟩ :: (← entries n)

def sections : Nat → Scan (List Section)
  | 0 => failure
  | n + 1 => do
    if (← peek?).isNone then return []
    char '['
    let h ← header
    lineEnd
    let es ← entries ((← left) + 1)
    return ⟨h, es⟩ :: (← sections n)

def document : Scan Members := do
  discard (accept ['\uFEFF'])
  let es ← entries ((← left) + 1)
  let ss ← sections ((← left) + 1)
  let whole ← Entry.addAll es []
  (ss.foldlM Section.addTo whole : Option Members)

end Scan

def read? (s : String) : Option Members :=
  (Scan.document.run s.toList).map (·.1)

end MillGateway.Toml
