import MillGateway.File.Error
import MillGateway.Path

/-! A directory tree in memory: files, directories and symbolic links under their places. Reading
and writing follow links, at most forty for one path. -/

namespace MillGateway

/-- What stands at a place. A file holds a text, or bytes that are none. -/
inductive FileNode where
  | text (s : String)
  | bytes (b : ByteArray)
  | dir
  | link (target : Path)

/-- A place in the tree: the names of the directories down to it from the root, and its own. -/
abbrev FilePlace := List String

/-- The nodes of a tree, and the directory that relative paths are seen from. The root is a
directory without an entry of its own. -/
structure FileTree where
  nodes : List (FilePlace × FileNode) := []
  current : FilePlace := []

namespace FileTree

instance : Inhabited FileTree := ⟨{}⟩

def maxName : Nat := 255

def maxPath : Nat := 4095

def maxLinks : Nat := 40

def node? (t : FileTree) (p : FilePlace) : Option FileNode :=
  if p.isEmpty then some .dir else t.nodes.lookup p

def put (t : FileTree) (p : FilePlace) (n : FileNode) : FileTree :=
  { t with nodes := (p, n) :: t.nodes.filter (·.1 != p) }

def remove (t : FileTree) (p : FilePlace) : FileTree :=
  { t with nodes := t.nodes.filter fun (q, _) => !p.isPrefixOf q }

def putParents (t : FileTree) (p : FilePlace) : FileTree :=
  (List.range p.length).foldl (fun t n =>
    let dir := p.take n
    if (t.node? dir).isSome then t else t.put dir .dir) t

structure Spot where
  place : FilePlace
  node? : Option FileNode
  slash : Bool

def stretches (p : Path) : List String :=
  (Text.pieces Path.isSlash p.text.toList).map String.ofList

/-- Follows stretches from a directory; `onLink` goes on behind a link that was met. A last name
may be absent. -/
def walk (t : FileTree) (onLink : FilePlace → List String → Except FileError Spot) :
    FilePlace → List String → Except FileError Spot
  | here, [] => .ok ⟨here, some .dir, false⟩
  | here, s :: rest =>
    if s = "" || s = "." then walk t onLink here rest
    else if s = ".." then walk t onLink here.dropLast rest
    else if maxName < s.utf8ByteSize then .error .nameTooLong
    else
      let place := here ++ [s]
      let slash := !rest.isEmpty
      let ends := rest.all (· == "")
      match t.node? place with
      | some .dir => walk t onLink place rest
      | some (.link target) =>
        if target.text = "" then .error .notFound
        else onLink (if target.isAbsolute then [] else here) (stretches target ++ rest)
      | some n => if ends then .ok ⟨place, some n, slash⟩ else .error .notDirectory
      | none => if ends then .ok ⟨place, none, slash⟩ else .error .notFound

def walkLinks (t : FileTree) : (links : Nat) → FilePlace → List String → Except FileError Spot
  | 0 => t.walk fun _ _ => .error .tooManyLinks
  | links + 1 => t.walk (t.walkLinks links)

def find (t : FileTree) (p : Path) : Except FileError Spot :=
  if p.text.toList.contains '\x00' then .error .nulInName
  else if p.text = "" then .error .notFound
  else if maxPath < p.text.utf8ByteSize then .error .nameTooLong
  else t.walkLinks maxLinks (if p.isAbsolute then [] else t.current) (stretches p)

def below (t : FileTree) (here : FilePlace) (name : String) : FilePlace :=
  match t.walkLinks maxLinks here [name] with
  | .ok ⟨place, some .dir, _⟩ => place
  | _ => here ++ [name]

def entry (t : FileTree) (p : Path) : FilePlace :=
  let names := (stretches p).filter fun s => s != "" && s != "."
  let start := if p.isAbsolute then [] else t.current
  match names.getLast? with
  | none => start
  | some last => names.dropLast.foldl t.below start ++ [last]

def place (t : FileTree) (p : Path) (n : FileNode) : FileTree :=
  (t.putParents (t.entry p)).put (t.entry p) n

def delete (t : FileTree) (p : Path) : FileTree :=
  t.remove (t.entry p)

def nodeAt (t : FileTree) (p : Path) : Except FileError FileNode := do
  let spot ← t.find p
  match spot.node? with
  | none => .error .notFound
  | some .dir => return .dir
  | some n => if spot.slash then .error .notDirectory else return n

def read (t : FileTree) (p : Path) : Except FileError String := do
  match ← t.nodeAt p with
  | .text s => return s
  | .dir => .error .isDirectory
  | .bytes _ | .link _ => .error .notText

def target (t : FileTree) (p : Path) : Except FileError (FilePlace × Option FileNode) := do
  let spot ← t.find p
  if spot.slash then .error .isDirectory
  else match spot.node? with
    | some .dir => .error .isDirectory
    | n? => return (spot.place, n?)

def write (t : FileTree) (p : Path) (s : String) : Except FileError FileTree := do
  let (place, _) ← t.target p
  return t.put place (.text s)

def append (t : FileTree) (p : Path) (s : String) : Except FileError FileTree := do
  let (place, n?) ← t.target p
  return t.put place (match n? with
    | some (.text old) => .text (old ++ s)
    | some (.bytes b) => .bytes (b ++ s.toUTF8)
    | _ => .text s)

end FileTree

end MillGateway
