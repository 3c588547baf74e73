import MillGateway.Path
import MillGateway.Text.Line

/-! Machine settings in sections of `KEY = VALUE` lines. Of two entries for one key the first
counts; lines of any other form are passed over. -/

namespace MillGateway

structure Ini.Entry where
  sect : String
  key : String
  value : String
  deriving DecidableEq, Repr

structure Ini where
  path? : Option Path := none
  entries : List Ini.Entry := []
  deriving Repr, Inhabited

namespace Ini

inductive Line where
  | void
  | header (name : String)
  | entry (key value : String)
  deriving DecidableEq, Repr

def bracketed? : List Char → Option (List Char)
  | '[' :: r => match r.reverse with
    | ']' :: r => some r.reverse
    | _ => none
  | _ => none

/-- A value up to a number sign with a space before it. -/
def dropRemark (s : List Char) : List Char :=
  match Text.cutAt? [' ', '#'] s with
  | some (v, _) => v
  | none => s

def readTrimmed (s : List Char) : Line :=
  match s with
  | [] | '#' :: _ | ';' :: _ => .void
  | s =>
    match bracketed? s with
    | some name => .header (String.ofList (Text.trim name))
    | none =>
      match Text.cutAt? ['='] s with
      | some (k, v) =>
        .entry (String.ofList (Text.trim k)) (String.ofList (Text.trim (dropRemark v)))
      | none => .void

def readLine (s : List Char) : Line :=
  readTrimmed (Text.trim s)

def entriesOf (sect : String) : List (List Char) → List Entry
  | [] => []
  | l :: ls =>
    match readLine l with
    | .void => entriesOf sect ls
    | .header name => entriesOf name ls
    | .entry k v => ⟨sect, k, v⟩ :: entriesOf sect ls

/-- The settings that a text writes. Keys before the first header stand in the section without
name. -/
def parse (text : String) : Ini :=
  ⟨none, entriesOf "" (Text.lines text.toList)⟩

/-- The value of the first entry for a key in a section; an empty value counts as none. -/
def find (ini : Ini) (sect key : String) : Option String :=
  ((ini.entries.find? fun e => e.sect == sect && e.key == key).map (·.value)).filter
    (· != "")

def baseDir (ini : Ini) : Path :=
  (ini.path?.bind Path.parent?).getD ⟨""⟩

def toolTable? (ini : Ini) : Option Path :=
  (ini.find "EMCIO" "TOOL_TABLE").map fun file => ini.baseDir.join ⟨file⟩

end Ini

end MillGateway
