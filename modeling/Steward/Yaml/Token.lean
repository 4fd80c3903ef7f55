/-!
# YAML: tokens

The tokens of a YAML text. Indentation has already become tokens for the start and the end of block
collections, and a key has its mark in front even where the text shows only the `:` behind it.

`load` of a document leaves this to a library for YAML.
-/

namespace Steward.Yaml

/-- A token. -/
inductive Token where
  /-- `%YAML`, with the major and the minor version. -/
  | version (major minor : Nat)
  /-- `%TAG`, with a handle and what it stands for. -/
  | tagHandle (handle : String) (meaning : List UInt8)
  /-- `---` -/
  | documentStart
  /-- `...` -/
  | documentEnd
  /-- The first entry of a block sequence follows. -/
  | blockSequenceStart
  /-- The first key of a block mapping follows. -/
  | blockMappingStart
  /-- The end of a block collection. -/
  | blockEnd
  /-- `[` -/
  | flowSequenceStart
  /-- `]` -/
  | flowSequenceEnd
  /-- A left brace. -/
  | flowMappingStart
  /-- A right brace. -/
  | flowMappingEnd
  /-- `-` -/
  | blockEntry
  /-- `,` -/
  | flowEntry
  /-- A key follows. -/
  | key
  /-- `:` -/
  | value
  /-- `*name` -/
  | alias (name : String)
  /-- `&name` -/
  | anchor (name : String)
  /-- A tag, with its handle and the rest. -/
  | tag (handle : String) (suffix : List UInt8)
  /-- A scalar; a plain one has no quotes and is no block. -/
  | scalar (text : String) (plain : Bool)
  deriving DecidableEq, Repr, Inhabited

end Steward.Yaml
