import MillGateway.Path

/-! The arguments on the command line. -/

namespace MillGateway.Console

structure Options where
  config? : Option Path := none
  ini? : Option Path := none
  deriving DecidableEq, Repr

inductive Invocation where
  | run (o : Options)
  | version
  | help
  | misuse
  deriving DecidableEq, Repr

def versionText : String :=
  "cnc-bridge 0.1.0"

inductive Flag where
  | config
  | ini
  deriving DecidableEq, Repr

namespace Options

def set? (o : Options) (f : Flag) (v : List Char) : Option Options :=
  if v.isEmpty then none
  else
    let p : Path := ⟨String.ofList v⟩
    match f with
    | .config => if o.config?.isSome then none else some { o with config? := some p }
    | .ini => if o.ini?.isSome then none else some { o with ini? := some p }

end Options

inductive Argument where
  | flag (f : Flag)
  | flagWith (f : Flag) (value : List Char)
  | version
  | help
  | ended
  | unknown
  deriving DecidableEq, Repr

namespace Argument

def ofName (name : List Char) (value? : Option (List Char)) : Argument :=
  match String.ofList name, value? with
  | "config", none => .flag .config
  | "config", some v => .flagWith .config v
  | "ini", none => .flag .ini
  | "ini", some v => .flagWith .ini v
  | "version", none => .version
  | "help", none => .help
  | _, _ => .unknown

def ofLetters : List Char → Argument
  | ['c'] => .flag .config
  | 'c' :: '=' :: v => .flagWith .config v
  | 'c' :: v => .flagWith .config v
  | 'V' :: _ => .version
  | 'h' :: _ => .help
  | _ => .unknown

def ofText (s : List Char) : Argument :=
  match s with
  | ['-', '-'] => .ended
  | '-' :: '-' :: s =>
    let (name, rest) := s.span (· != '=')
    ofName name (rest.head?.map fun _ => rest.tail)
  | '-' :: c :: s => ofLetters (c :: s)
  | _ => .unknown

/-- Whether an argument opens with a dash and is more than that; such an argument is no value. -/
def isDashed (s : List Char) : Bool :=
  match s with
  | '-' :: _ :: _ => true
  | _ => false

end Argument

namespace Invocation

def ofTexts (o : Options) : List (List Char) → Invocation
  | [] => .run o
  | w :: ws =>
    match Argument.ofText w with
    | .flag f =>
      match ws with
      | v :: ws =>
        if Argument.isDashed v then .misuse
        else match o.set? f v with
          | some o => ofTexts o ws
          | none => .misuse
      | [] => .misuse
    | .flagWith f v =>
      match o.set? f v with
      | some o => ofTexts o ws
      | none => .misuse
    | .version => .version
    | .help => .help
    | .ended => if ws.isEmpty then .run o else .misuse
    | .unknown => .misuse

def read (args : List String) : Invocation :=
  ofTexts {} (args.map String.toList)

end Invocation

end MillGateway.Console
