import MillGateway.Json.Basic

/-! Messages from the controller, numbered and stamped with the time at which they were read. -/

namespace MillGateway

inductive MessageKind where
  | nmlError
  | nmlText
  | nmlDisplay
  | operatorError
  | operatorText
  | operatorDisplay
  | other (code : Int32)
  deriving DecidableEq, Repr

inductive Severity where
  | error
  | info
  deriving DecidableEq, Repr

namespace MessageKind

def code : MessageKind → Int32
  | .nmlError => 1
  | .nmlText => 2
  | .nmlDisplay => 3
  | .operatorError => 11
  | .operatorText => 12
  | .operatorDisplay => 13
  | .other code => code

/-- A message is an error only if its kind says so; a kind without name never does. -/
def severity : MessageKind → Severity
  | .nmlError | .operatorError => .error
  | _ => .info

end MessageKind

def Severity.name : Severity → String
  | .error => "error"
  | .info => "info"

structure Message where
  kind : MessageKind
  text : String
  deriving DecidableEq, Repr

structure Event where
  id : UInt64
  kind : MessageKind
  severity : Severity
  text : String
  time : String
  deriving DecidableEq, Repr

namespace Event

def ofMessage (id : UInt64) (m : Message) (time : String) : Event :=
  ⟨id, m.kind, m.kind.severity, m.text, time⟩

def toJson (e : Event) : Json :=
  .ofMembers [
    ("id", .ofInt e.id.toNat),
    ("kind", .ofInt e.kind.code.toInt),
    ("type", .str e.severity.name),
    ("text", .str e.text),
    ("time", .str e.time)]

end Event

end MillGateway
