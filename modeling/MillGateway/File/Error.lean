/-! Why a file could not be read or written. -/

namespace MillGateway

inductive FileError where
  | notFound
  | denied
  | notDirectory
  | isDirectory
  | nameTooLong
  | tooManyLinks
  | notText
  | nulInName
  | other (text : String) (number : Nat)
  deriving DecidableEq, Repr

def FileError.ofNumber (text : String) : Nat → FileError
  | 2 => .notFound
  | 13 => .denied
  | 20 => .notDirectory
  | 21 => .isDirectory
  | 36 => .nameTooLong
  | 40 => .tooManyLinks
  | number => .other text number

def FileError.numbered (text : String) (number : Nat) : String :=
  text ++ " (os error " ++ toString number ++ ")"

def FileError.message : FileError → String
  | .notFound => numbered "No such file or directory" 2
  | .denied => numbered "Permission denied" 13
  | .notDirectory => numbered "Not a directory" 20
  | .isDirectory => numbered "Is a directory" 21
  | .nameTooLong => numbered "File name too long" 36
  | .tooManyLinks => numbered "Too many levels of symbolic links" 40
  | .notText => "stream did not contain valid UTF-8"
  | .nulInName => "file name contained an unexpected NUL byte"
  | .other text number => numbered text number

end MillGateway
