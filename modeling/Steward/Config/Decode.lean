import Steward.Config.Resource
import Steward.Toml.Document

/-!
# Configuration from TOML

A record is written as a table of named fields, or as an array of its fields in the order of their
declaration. In a table, the fields are decoded in the order of the document, so the first bad one
is reported; after them the required fields that are missing. Fields with unknown names are passed
over, save in the group of backends, where such a name is an error, since otherwise a backend would
silently be left out. The sections of backends are tables only.

These are the derived readers (`deserialize`) of `Configuration`, `Resource`, `TemplateConfig`,
`BackendsConfig`, `EnvConfig`, `FileConfig` and `BackendSettings`, and `parse` is `from_str` of the
library for TOML.
-/

namespace Steward.Config

open Toml (Value Table)

/-- Why a value is no configuration. -/
inductive DecodeError where
  /-- A required field is missing. -/
  | missingField (name : String)
  /-- A field has a name that is not expected. -/
  | unknownField (name : String) (expected : List String)
  /-- A value is of another kind than expected. -/
  | wrongKind
  deriving DecidableEq, Repr

/-- A name between backticks. -/
def ticked (name : String) : String := "\x60" ++ name ++ "\x60"

/-- The text of the error, where it has one of its own. -/
def DecodeError.message? : DecodeError → Option String
  | missingField name => some ("missing field " ++ ticked name)
  | unknownField name expected =>
    some ("unknown field " ++ ticked name ++ ", expected " ++
      " or ".intercalate (expected.map ticked))
  | wrongKind => none

/-! ## Simple values -/

/-- Decodes a text. -/
def decodeText : Value → Except DecodeError String
  | .string s => .ok s
  | _ => .error .wrongKind

/-- Decodes a list. -/
def decodeList {α : Type} (decode : Value → Except DecodeError α) :
    Value → Except DecodeError (List α)
  | .array items => items.mapM decode
  | _ => .error .wrongKind

/-! ## Records -/

/-- A record as it is written. -/
structure Record where
  /-- The fields, in the order of the document. -/
  fields : Table
  /-- The error for a required field that is missing. -/
  missing : String → DecodeError

/-- The field that stands for a date where a table is expected. -/
def momentField : String := "$__toml_private_datetime"

/-- Reads a value as a table. A date counts as a table with one field of its own. -/
def tableOf? : Value → Option Table
  | .table fields => some fields
  | .moment text => some [(momentField, .string text)]
  | _ => none

/-- Reads a value as a record with the given fields, in the order of their declaration. -/
def readRecord (names : List String) (v : Value) : Except DecodeError Record :=
  match v with
  | .array items => .ok ⟨names.zip items, fun _ => .wrongKind⟩
  | _ =>
    match tableOf? v with
    | some fields => .ok ⟨fields, .missingField⟩
    | none => .error .wrongKind

/-- Takes the fields of a record one after another into a value. -/
def Record.collect {α : Type} (r : Record) (start : α)
    (take : α → String → Value → Except DecodeError α) : Except DecodeError α :=
  r.fields.foldlM (fun a f => take a f.1 f.2) start

/-- A field that has to be there. -/
def Record.require {α : Type} (r : Record) (name : String) : Option α → Except DecodeError α
  | some a => .ok a
  | none => .error (r.missing name)

/-! ## Backends -/

/-- Takes one field of the settings of a backend. -/
def takeSettings (s : Backend.Settings) (name : String) (v : Value) :
    Except DecodeError Backend.Settings :=
  match name with
  | "prefix" => (decodeText v).map fun t => { s with keyPrefix := t }
  | "keys" => (decodeList decodeText v).map fun ks => { s with keys := ks }
  | _ => .ok s

/-- Decodes the settings of a backend. -/
def decodeSettings (v : Value) : Except DecodeError Backend.Settings := do
  let r ← readRecord ["prefix", "keys"] v
  r.collect {} takeSettings

/-- Decodes settings that stand among other fields of a section. -/
def sectionSettings (fields : Table) : Except DecodeError Backend.Settings :=
  fields.foldlM (fun s f => takeSettings s f.1 f.2) {}

/-- Decodes the section of an environment backend. -/
def decodeEnvironmentSection (v : Value) : Except DecodeError Backend.EnvironmentSection :=
  match tableOf? v with
  | some fields => (sectionSettings fields).map fun s => ⟨s⟩
  | none => .error .wrongKind

/-- Takes the path of a file section, and passes over its other fields. -/
def takeFilepath (path : Option String) (name : String) (v : Value) :
    Except DecodeError (Option String) :=
  match name with
  | "filepath" => (decodeText v).map some
  | _ => .ok path

/-- Decodes the section of a file backend. The path comes first: it is checked before the settings,
    wherever they stand. -/
def decodeFileSection (v : Value) : Except DecodeError Backend.FileSection :=
  match tableOf? v with
  | some fields => do
    let r : Record := ⟨fields, .missingField⟩
    let path ← r.collect none takeFilepath
    let path ← r.require "filepath" path
    let settings ← sectionSettings fields
    pure ⟨path, settings⟩
  | none => .error .wrongKind

/-- The names of the backend sections. -/
def groupNames : List String := ["env", "file"]

/-- Takes one section of a group; there are no others. -/
def takeGroup (g : Backend.Group) (name : String) (v : Value) :
    Except DecodeError Backend.Group :=
  match name with
  | "env" => (decodeEnvironmentSection v).map fun s => { g with env := some s }
  | "file" => (decodeFileSection v).map fun s => { g with file := some s }
  | _ => .error (.unknownField name groupNames)

/-- Decodes the backends of a resource. -/
def decodeGroup (v : Value) : Except DecodeError Backend.Group := do
  let r ← readRecord groupNames v
  r.collect {} takeGroup

/-! ## Resources -/

/-- The fields of a template while they are taken. -/
structure PartialTemplate where
  /-- The path of the template. -/
  src : Option String := none
  /-- The path of the output. -/
  dst : Option String := none
  /-- The file mode. -/
  mode : Option String := none
  /-- The checking command. -/
  checkCmd : Option String := none
  /-- The reloading command. -/
  reloadCmd : Option String := none

/-- Takes one field of a template. -/
def takeTemplate (t : PartialTemplate) (name : String) (v : Value) :
    Except DecodeError PartialTemplate :=
  match name with
  | "src" => (decodeText v).map fun s => { t with src := some s }
  | "dst" => (decodeText v).map fun s => { t with dst := some s }
  | "mode" => (decodeText v).map fun s => { t with mode := some s }
  | "check_cmd" => (decodeText v).map fun s => { t with checkCmd := some s }
  | "reload_cmd" => (decodeText v).map fun s => { t with reloadCmd := some s }
  | _ => .ok t

/-- Decodes a template. -/
def decodeTemplate (v : Value) : Except DecodeError Template := do
  let r ← readRecord ["src", "dst", "mode", "check_cmd", "reload_cmd"] v
  let t ← r.collect {} takeTemplate
  let src ← r.require "src" t.src
  let dst ← r.require "dst" t.dst
  pure ⟨src, dst, t.mode, t.checkCmd, t.reloadCmd⟩

/-- Takes one field of a resource. -/
def takeResource (r : Resource) (name : String) (v : Value) : Except DecodeError Resource :=
  match name with
  | "name" => (decodeText v).map fun s => { r with configuredName := some s }
  | "template" => (decodeList decodeTemplate v).map fun ts => { r with templates := ts }
  | "backend" => (decodeGroup v).map fun g => { r with backends := g }
  | _ => .ok r

/-- Decodes a resource. -/
def decodeResource (v : Value) : Except DecodeError Resource := do
  let r ← readRecord ["name", "template", "backend"] v
  r.collect {} takeResource

/-- Takes one field of a configuration. -/
def takeConfiguration (c : Configuration) (name : String) (v : Value) :
    Except DecodeError Configuration :=
  match name with
  | "log_level" => (decodeText v).map fun s => { c with logLevel := s }
  | "log_format" => (decodeText v).map fun s => { c with logFormat := s }
  | "include_dir" => (decodeText v).map fun s => { c with includeDir := some s }
  | "resource" => (decodeList decodeResource v).map fun rs => { c with resources := rs }
  | _ => .ok c

/-- Decodes a configuration. -/
def decodeConfiguration (v : Value) : Except DecodeError Configuration := do
  let r ← readRecord ["log_level", "log_format", "include_dir", "resource"] v
  r.collect {} takeConfiguration

/-! ## Documents -/

/-- Why a text is no configuration. -/
inductive ParseError where
  /-- The text is no TOML document. -/
  | malformed
  /-- The document says something else. -/
  | decode (cause : DecodeError)
  deriving DecidableEq, Repr

/-- The text of the error, where it has one of its own. -/
def ParseError.message? : ParseError → Option String
  | malformed => none
  | decode cause => cause.message?

/-- Reads a document and decodes it. -/
def parse {α : Type} (decode : Value → Except DecodeError α) (text : String) :
    Except ParseError α :=
  match Toml.parse? text with
  | none => .error .malformed
  | some fields =>
    match decode (.table fields) with
    | .ok a => .ok a
    | .error e => .error (.decode e)

end Steward.Config
