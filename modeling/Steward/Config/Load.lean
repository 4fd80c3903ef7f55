import Steward.Config.Decode
import Steward.Config.Expansion
import Steward.World.Basic

/-!
# Loading a configuration

The primary file is read, its variable references are expanded, and the result is parsed. Resources
without templates are left out, and those without a name are named after their position. Then each
file of the include directory whose name ends in `.toml` gives one more resource, in ascending order
of the names. The first failure ends the loading.

This is `load` of the configuration, with `parse_file` (`parseFile`) and `load_include_dir`
(`loadDirectory`).
-/

namespace Steward.Config

/-- Why no configuration could be loaded. -/
inductive LoadError where
  /-- A file could not be read. -/
  | read (path : FilePath) (cause : IoError)
  /-- A file could not be parsed. -/
  | parse (path : FilePath) (cause : ParseError)
  /-- The include directory could not be listed. -/
  | includeDir (path : FilePath) (cause : IoError)
  deriving DecidableEq, Repr

/-- The short name of the error. -/
def LoadError.label : LoadError → String
  | read .. => "config_read"
  | parse .. => "config_parse"
  | includeDir .. => "config_include_dir"

/-- The text of the error; a parse error keeps to itself what has no text of its own. -/
def LoadError.message : LoadError → String
  | read path cause => "read " ++ path.text ++ ": " ++ cause.message
  | parse path cause => "parse " ++ path.text ++ ": " ++ cause.message?.getD ""
  | includeDir path cause => "include dir " ++ path.text ++ ": " ++ cause.message

/-- Reads one file, expands it and decodes it. -/
def parseFile {α : Type} (world : World) (decode : Toml.Value → Except DecodeError α)
    (path : FilePath) : Except LoadError α :=
  match world.files.readText path with
  | .error e => .error (.read path e)
  | .ok text =>
    match parse decode (expandEnvironment world.environment text) with
    | .error e => .error (.parse path e)
    | .ok a => .ok a

/-- The resources of the primary file that have templates, each with a name. -/
def nameByPosition (resources : List Resource) : List Resource :=
  (resources.filter fun r => !r.isEmpty).mapIdx fun i r =>
    r.withDefaultName (Resource.positionName i)

/-- True for the names of the files that hold resources. -/
def isResourceFile (name : Octets) : Bool := ".toml".toList.isSuffixOf (Text.lossy name).toList

/-- The order of names: that of the texts they stand for, and among those that stand for the same
    text that of their octets. -/
def comesBefore (a b : Octets) : Bool :=
  Text.lossy a < Text.lossy b || Text.lossy a == Text.lossy b && decide (a ≤ b)

/-- The names of the resource files in a directory, in ascending order. -/
def resourceFiles (names : List Octets) : List Octets :=
  (names.filter isResourceFile).mergeSort comesBefore

/-- A list of files as far as it was gone through, and what came of it. -/
structure Loading (α : Type) where
  /-- The files that were announced before they were read, in order, as they are shown. -/
  announced : List String
  /-- The result, or the first failure. -/
  result : Except LoadError α

/-- The resources in the files of a directory. A file is announced before it is read; one without
    templates gives no resource. -/
def loadFiles (world : World) (dir : FilePath) : List Octets → Loading (List Resource)
  | [] => ⟨[], .ok []⟩
  | name :: rest =>
    let path := dir.entry name
    match parseFile world decodeResource path with
    | .error e => ⟨[path.text], .error e⟩
    | .ok r =>
      let later := loadFiles world dir rest
      ⟨path.text :: later.announced, later.result.map fun rs =>
        if r.isEmpty then rs else r.withDefaultName (Text.lossy name) :: rs⟩

/-- The resources in an include directory. -/
def loadDirectory (world : World) (dir : FilePath) : Loading (List Resource) :=
  match world.files.list dir with
  | .error e => ⟨[], .error (.includeDir dir e)⟩
  | .ok names => loadFiles world dir (resourceFiles names)

/-- The configuration at a path, with the resources of its include directory. -/
def load (world : World) (path : FilePath) : Loading Configuration :=
  match parseFile world decodeConfiguration path with
  | .error e => ⟨[], .error e⟩
  | .ok c =>
    let named := nameByPosition c.resources
    match c.includeDir with
    | none => ⟨[], .ok { c with resources := named }⟩
    | some dir =>
      let included := loadDirectory world dir
      ⟨included.announced, included.result.map fun rs => { c with resources := named ++ rs }⟩

end Steward.Config
