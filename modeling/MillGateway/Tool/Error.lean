import MillGateway.File.Error
import MillGateway.Path
import MillGateway.Tool.Key

/-! Why an edit of the tool table was refused or failed. -/

namespace MillGateway.Tool

inductive Error where
  | missingNumber
  | invalidNumber (value : String)
  | duplicateNumber (n : Int)
  | malformedField (k : Key)
  | emptyRecord
  | read (path : Path) (cause : FileError)
  | backup (path : Path) (cause : FileError)
  | write (path : Path) (cause : FileError)
  deriving DecidableEq, Repr

namespace Error

def message : Error → String
  | .missingNumber => "No tool-number provided"
  | .invalidNumber v => "Invalid tool-number: " ++ v
  | .duplicateNumber n => "Duplicate tool-number: " ++ toString n
  | .malformedField k => "Invalid value for tool field '" ++ k.symbol.toString ++ "'"
  | .emptyRecord => "Invalid tool-data provided"
  | .read path e => "Failed to read tool table " ++ path.text ++ ": " ++ e.message
  | .backup path e => "Failed to back up tool table to " ++ path.text ++ ": " ++ e.message
  | .write path e => "Failed to write tool table " ++ path.text ++ ": " ++ e.message

def code : Error → Int32
  | .missingNumber | .invalidNumber _ | .duplicateNumber _ | .malformedField _ => -1
  | .read .. | .backup .. => -1
  | .emptyRecord => -3
  | .write .. => -4

end Error

end MillGateway.Tool
