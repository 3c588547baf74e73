import MillGateway.Text.Line
import MillGateway.Tool.Line

/-! The text of a tool table: one tool a line. Edits touch no byte that they need not touch. -/

namespace MillGateway.Tool.Table

def records (text : String) : List Record :=
  ((Text.lines text.toList).filter fun l => !(Text.trim l).isEmpty).map Record.ofChars

def hasNumber (n : Int) (text : String) : Bool :=
  (Text.lines text.toList).any fun l => (Record.ofChars l).toolNumber == some n

/-- What is appended for a tool: its line, and before it the line feed that the text lacks. -/
def entry (text : String) (r : Record) : String :=
  let gap := match text.toList.getLast? with
    | none | some '\n' => ""
    | some _ => "\n"
  gap ++ r.line ++ "\n"

def without (ns : List Int) (text : String) : String :=
  String.ofList ((Text.segments text.toList).filter fun s =>
    match (Record.ofChars s).toolNumber with
    | some n => !ns.contains n
    | none => true).flatten

def ofRecords (rs : List Record) : String :=
  String.ofList (rs.flatMap fun r => r.lineChars ++ ['\n'])

end MillGateway.Tool.Table
