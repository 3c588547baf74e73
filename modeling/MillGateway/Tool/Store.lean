import MillGateway.Job.Basic
import MillGateway.Tool.Error
import MillGateway.Tool.Table

/-! Reading and editing the file of the tool table. Edits exclude each other; those that write the
file anew first copy it to a backup beside it. -/

namespace MillGateway.Tool

def Record.validate (r : Record) : Except Error Int :=
  match r.get .t, r.toolNumber, r.malformedField with
  | none, _, _ => .error .missingNumber
  | some v, none, _ => .error (.invalidNumber v)
  | some _, some _, some k => .error (.malformedField k)
  | some _, some n, none => .ok n

def validateAll (seen : List Int) : List Record → Except Error Unit
  | [] => .ok ()
  | r :: rs => do
    let n ← r.validate
    if seen.contains n then .error (.duplicateNumber n) else validateAll (n :: seen) rs

inductive Added where
  | added
  | exists
  deriving DecidableEq, Repr

namespace Store

open Job

def backupPath (table : Path) : Path :=
  table.withSuffix ".bak"

def readText (table : Path) : Job (Except Error String) := do
  return (← outside (.readText table)).mapError (.read table)

def readTextOrEmpty (table : Path) : Job (Except Error String) := do
  match ← outside (.readText table) with
  | .ok text => return .ok text
  | .error .notFound => return .ok ""
  | .error e => return .error (.read table e)

def backUp (table : Path) (text : String) : Job (Except Error Unit) := do
  return (← outside (.writeText (backupPath table) text)).mapError (.backup (backupPath table))

def write (table : Path) (text : String) : Job (Except Error Unit) := do
  return (← outside (.writeText table text)).mapError (.write table)

def append (table : Path) (text : String) : Job (Except Error Unit) := do
  return (← outside (.appendText table text)).mapError (.write table)

def read (table : Path) : Job (Except Error (List Record)) := do
  return (← readText table).map Table.records

def add (table : Path) (r : Record) : Job (Except Error Added) :=
  match r.validate with
  | .error e => return .error e
  | .ok n => locked .editing do
    match ← readTextOrEmpty table with
    | .error e => return .error e
    | .ok text =>
      if Table.hasNumber n text then return .ok .exists
      else if r.line = "" then return .error .emptyRecord
      else return (← append table (Table.entry text r)).map fun _ => .added

/-- Removes the tools whose numbers are listed. A negative number in the list leaves the table as
it is. -/
def remove (table : Path) (ns : List Int) : Job (Except Error Unit) :=
  locked .editing do
    match ← readText table with
    | .error e => return .error e
    | .ok text =>
      match ← backUp table text with
      | .error e => return .error e
      | .ok () =>
        if ns.any (· < 0) then return .ok ()
        else write table (Table.without ns text)

def update (table : Path) (rs : List Record) : Job (Except Error Unit) :=
  match validateAll [] rs with
  | .error e => return .error e
  | .ok () => locked .editing do
    match ← readTextOrEmpty table with
    | .error e => return .error e
    | .ok text =>
      match ← backUp table text with
      | .error e => return .error e
      | .ok () => write table (Table.ofRecords rs)

end Store

end MillGateway.Tool
