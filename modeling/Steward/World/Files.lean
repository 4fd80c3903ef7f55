import Steward.Text.Utf8

/-!
# The files of a process

A tree of files from its root, and the working directory of the process in it. Names are octets, as
they are to a file system. Paths are read as it reads them: from the root if they begin with a slash,
else from the working directory; `.` and empty segments stay, `..` goes up, at the root it stays, and
whatever has something behind it must be a directory.

`FileTree.readText` is `read_to_string`, and `FileTree.list` is `read_dir`.
-/

namespace Steward

/-- Why a file or directory could not be read. -/
inductive IoError where
  /-- There is no file of that name. -/
  | notFound
  /-- A file stands where a directory is needed. -/
  | notDirectory
  /-- A directory stands where a file is needed. -/
  | isDirectory
  /-- A name or a path is too long. -/
  | nameTooLong
  /-- The path holds a NUL. -/
  | nulInPath
  /-- The file does not hold text. -/
  | invalidText
  /-- Any other reason, in its own words. -/
  | other (text : String)
  deriving DecidableEq, Repr

namespace IoError

/-- The text of the error. -/
def message : IoError → String
  | notFound => "No such file or directory (os error 2)"
  | notDirectory => "Not a directory (os error 20)"
  | isDirectory => "Is a directory (os error 21)"
  | nameTooLong => "File name too long (os error 36)"
  | nulInPath => "file name contained an unexpected NUL byte"
  | invalidText => "stream did not contain valid UTF-8"
  | other text => text

end IoError

/-! ## Paths -/

/-- A path, as octets. It is shown as the text they stand for. -/
structure FilePath where
  octets : Octets
  deriving DecidableEq, Repr

namespace FilePath

/-- The path that a text says. -/
def ofText (text : String) : FilePath := ⟨Text.bytes text⟩

/-- The text that a path is shown as. -/
def text (path : FilePath) : String := Text.lossy path.octets

instance : Coe String FilePath := ⟨ofText⟩

instance : Coe FilePath String := ⟨text⟩

/-- The octet between two segments. -/
def slash : UInt8 := 0x2F

/-- The segment that stays. -/
abbrev here : Octets := [0x2E]

/-- The segment that goes up. -/
abbrev parent : Octets := [0x2E, 0x2E]

/-- The segments of a path. -/
def segments (path : FilePath) : List Octets := path.octets.splitOn slash

/-- True for a path that begins at the root. -/
def isRooted (path : FilePath) : Bool := path.octets.head? == some slash

/-- The path of an entry of a directory. -/
def entry (dir : FilePath) (name : Octets) : FilePath :=
  if dir.octets.getLast?.all (· == slash) then ⟨dir.octets ++ name⟩
  else ⟨dir.octets ++ slash :: name⟩

end FilePath

/-! ## Files and directories -/

/-- What has a name in a file system. -/
inductive Node where
  /-- A file with its bytes. -/
  | file (content : ByteArray)
  /-- A directory with its entries, in the order in which they are listed. -/
  | directory (entries : List (Octets × Node))
  /-- What cannot be opened, such as a directory without permission or a link that leads nowhere:
      whatever is done with it fails for the same reason. -/
  | closed (cause : IoError)
  deriving Inhabited

namespace Node

/-- The directory without entries. -/
def emptyDirectory : Node := directory []

/-- Puts `node` under `name`, in place of what stood there, or behind the other entries. -/
def putIn (name : Octets) (node : Node) : List (Octets × Node) → List (Octets × Node)
  | [] => [(name, node)]
  | (n, old) :: rest => if n = name then (n, node) :: rest else (n, old) :: putIn name node rest

/-- The tree with `node` at a place; directories on the way are made where they are missing. A
    directory that is already there keeps its entries when an empty one is put in its place. -/
def write (node : Node) : List Octets → Node → Node
  | [], old =>
    match node, old with
    | directory [], directory entries => directory entries
    | _, _ => node
  | name :: place, old =>
    let entries := match old with
      | directory entries => entries
      | _ => []
    directory (putIn name (write node place ((entries.lookup name).getD emptyDirectory)) entries)

/-- The tree without what is at a place. -/
def delete : List Octets → Node → Node
  | [name], directory entries => directory (entries.filter (·.1 ≠ name))
  | name :: place, directory entries =>
    directory (entries.map fun e => if e.1 = name then (name, delete place e.2) else e)
  | _, node => node

/-- Follows the segments of a path from a node that lies in the given directories, the nearest one
    first. -/
def follow : List Octets → Node → List Node → Except IoError Node
  | [], node, _ => .ok node
  | segment :: path, node, above =>
    match node with
    | file _ => .error .notDirectory
    | closed cause => .error cause
    | directory entries =>
      if segment = [] ∨ segment = FilePath.here then follow path node above
      else if segment = FilePath.parent then follow path (above.headD node) above.tail
      else if 255 < segment.length then .error .nameTooLong
      else
        match entries.lookup segment with
        | none => .error .notFound
        | some inner => follow path inner (node :: above)

end Node

/-! ## The tree of a process -/

/-- A tree of files, seen by a process from its working directory. -/
structure FileTree where
  /-- The root directory. -/
  root : Node := .directory [(Text.bytes "work", .emptyDirectory)]
  /-- Where the working directory is. -/
  workingDirectory : List Octets := [Text.bytes "work"]
  deriving Inhabited

namespace FileTree

/-- The node at a path. -/
def find (tree : FileTree) (path : FilePath) : Except IoError Node :=
  if path.octets.contains 0 then .error .nulInPath
  else if path.octets.isEmpty then .error .notFound
  else if 4096 ≤ path.octets.length then .error .nameTooLong
  else
    let fromRoot := if path.isRooted then [] else tree.workingDirectory
    tree.root.follow (fromRoot ++ path.segments) []

/-- The text of the file at a path. -/
def readText (tree : FileTree) (path : FilePath) : Except IoError String :=
  match tree.find path with
  | .error cause => .error cause
  | .ok (.directory _) => .error .isDirectory
  | .ok (.closed cause) => .error cause
  | .ok (.file content) =>
    match String.fromUTF8? content with
    | some text => .ok text
    | none => .error .invalidText

/-- The names in the directory at a path, as they are listed. -/
def list (tree : FileTree) (path : FilePath) : Except IoError (List Octets) :=
  match tree.find path with
  | .error cause => .error cause
  | .ok (.file _) => .error .notDirectory
  | .ok (.closed cause) => .error cause
  | .ok (.directory entries) => .ok (entries.map (·.1))

/-- Where a path below the working directory leads. -/
def place (tree : FileTree) (path : FilePath) : List Octets :=
  tree.workingDirectory ++ path.segments.filter fun s => s ≠ [] ∧ s ≠ FilePath.here

/-- The tree with a node at a path below the working directory. -/
def write (tree : FileTree) (path : FilePath) (node : Node) : FileTree :=
  { tree with root := Node.write node (tree.place path) tree.root }

/-- The tree without what is at a path below the working directory, which itself stays. -/
def delete (tree : FileTree) (path : FilePath) : FileTree :=
  if tree.place path = tree.workingDirectory then tree
  else { tree with root := Node.delete (tree.place path) tree.root }

end FileTree

end Steward
