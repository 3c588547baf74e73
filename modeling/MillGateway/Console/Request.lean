import MillGateway.Json.Skip
import MillGateway.Text.Blank

/-! Requests that come as lines of text: the name of a command with its arguments, in an object or
in a list. -/

namespace MillGateway.Console

open Json

structure Request where
  command : String
  args : Json := .null
  deriving Repr

def content? (line : String) : Option String :=
  let s := String.ofList (Text.trim line.toList)
  if s = "" then none else some s

namespace Request

def title : String :=
  "ConsoleRequest"

/-- How deep the arguments may nest, plus one. The request itself is a level. -/
def argsDepth : Nat :=
  depthLimit - 1

def readCommand (place : Cursor) : Step (String × Cursor) :=
  let place := place.skipSpace
  match place.rest with
  | '"' :: _ => readString place.skip
  | _ => refuseAhead place "a string"

/-! ### Objects -/

def duplicate (place : Cursor) (key : String) : Step α :=
  let place := place.skipSpace
  let place := match place.rest with
    | '\x7d' :: _ => place.skip
    | _ => place
  .error (place.misshapen (.duplicateField key))

def readMembers (command? : Option String) (args? : Option Json) (place : Cursor) (first : Bool) :
    Nat → Step (Request × Cursor)
  | 0 => .error (place.behind .endInObject)
  | fuel + 1 => do
    let (more, place) ← nextKey place first
    if !more then
      match command? with
      | some command => return (⟨command, args?.getD .null⟩, place.skip)
      | none => .error (place.skip.misshapen (.missingField "command"))
    else
      let (key, place) ← readString place.skip
      if key = "command" then
        if command?.isSome then duplicate place key
        else
          let (command, place) ← readCommand (← readColon place)
          readMembers (some command) args? place false fuel
      else if key = "args" then
        if args?.isSome then duplicate place key
        else
          let (args, place) ← readValue argsDepth (← readColon place)
          readMembers command? (some args) place false fuel
      else
        let place ← skipValue (← readColon place)
        readMembers command? args? place false fuel

/-! ### Lists -/

def readClose (place : Cursor) : Step Cursor :=
  let place := place.skipSpace
  match place.rest with
  | ']' :: _ => .ok place.skip
  | ',' :: _ =>
    let place := place.skip.skipSpace
    match place.rest with
    | ']' :: _ => .error (place.ahead .trailingComma)
    | _ => .error (place.ahead .trailingCharacters)
  | _ :: _ => .error (place.ahead .trailingCharacters)
  | [] => .error (place.ahead .endInList)

def readItems (place : Cursor) : Step (Request × Cursor) := do
  let (more, place) ← nextItem place true
  if !more then .error (place.skip.misshapen (.tooShort 0 title 2))
  else
    let (command, place) ← readCommand place
    let (more, place) ← nextItem place false
    if !more then return (⟨command, .null⟩, place.skip)
    else
      let (args, place) ← readValue argsDepth place
      return (⟨command, args⟩, ← readClose place)

def read (line : String) : Except ReadError Request := do
  let place := (Cursor.start line).skipSpace
  let (r, place) ← match place.rest with
    | '[' :: _ => readItems place.skip
    | '\x7b' :: _ => readMembers none none place.skip true (place.rest.length + 1)
    | _ => refuseAhead place ("struct " ++ title)
  readEnd place
  return r

end Request

end MillGateway.Console
