import MillGateway.Text.Blank

/-! Paths of files: names between slashes. A path is kept as it was written; what it means is read
off its components. -/

namespace MillGateway

structure Path where
  text : String
  deriving DecidableEq, Repr, Inhabited

namespace Path

inductive Component where
  | root
  | here
  | up
  | name (s : List Char)
  deriving DecidableEq, Repr

def isSlash (c : Char) : Bool :=
  c == '/'

def isAbsolute (p : Path) : Bool :=
  match p.text.toList with
  | c :: _ => isSlash c
  | [] => false

/-- What a stretch between slashes means. A single dot counts only where it opens a relative
path. -/
def component? (opening : Bool) (s : List Char) : Option Component :=
  if s.isEmpty then none
  else if s = ['.'] then (if opening then some .here else none)
  else if s = ['.', '.'] then some .up
  else some (.name s)

def components (p : Path) : List Component :=
  match Text.pieces isSlash p.text.toList with
  | [] => []
  | s :: ss =>
    if p.isAbsolute then .root :: ss.filterMap (component? false)
    else (component? true s).toList ++ ss.filterMap (component? false)

/-- Whether a name is one plain step: it stays in the directory that it is joined to. -/
def isPlainName (name : String) : Bool :=
  (match components ⟨name⟩ with
    | [.name _] => true
    | _ => false) &&
  !name.toList.any fun c => c == '/' || c == '\\'

def join (p q : Path) : Path :=
  if q.isAbsolute then q
  else
    let sep := match p.text.toList.getLast? with
      | none => ""
      | some c => if isSlash c then "" else "/"
    ⟨p.text ++ sep ++ q.text⟩

/-- Stretches without those at the end that mean nothing. The opening stretch of a relative path
may be a single dot that counts. -/
def dropVoid (relative : Bool) (ss : List (List Char)) : List (List Char) :=
  (go ss.reverse).reverse
where
  go : List (List Char) → List (List Char)
    | [] => []
    | s :: rest =>
      if (component? (relative && rest.isEmpty) s).isSome then s :: rest else go rest

def glue (ss : List (List Char)) : String :=
  String.ofList (['/'].intercalate ss)

def parent? (p : Path) : Option Path :=
  let pieces := Text.pieces isSlash p.text.toList
  if p.isAbsolute then
    match dropVoid false pieces.tail with
    | [] => none
    | ss => some ⟨"/" ++ glue (dropVoid false ss.dropLast)⟩
  else
    match dropVoid true pieces with
    | [] => none
    | ss => some ⟨glue (dropVoid true ss.dropLast)⟩

def withSuffix (p : Path) (suffix : String) : Path :=
  ⟨p.text ++ suffix⟩

end Path

end MillGateway
