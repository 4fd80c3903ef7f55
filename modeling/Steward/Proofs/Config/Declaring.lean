import Steward.Proofs.Config.Decoding
import Steward.Proofs.Config.Failing

/-!
# The backends that a configuration declares

A resource is declared in the primary file, as one of several, or makes up a file of the include
directory. Resources without templates are left out of the configuration, but they are decoded like
the others. So if a configuration can be loaded, no resource in any of the files names a backend of
an unknown kind, and the backends of the listed resources are those that were declared for them.

Results:
* `accounts_for_own`, `accounts_for_included`: the resources of the primary file and those of an
  include directory.
* `load_accounts_for_backends`: all resources of a configuration that was loaded.
-/

namespace Steward.Config

open Toml (Value Table)

variable {world : World} {path : FilePath}

/-! ## Declared resources -/

/-- A file holds a document, once the references in its text are expanded. -/
def IsWritten (world : World) (path : FilePath) (document : Table) : Prop :=
  ∃ text, world.files.readText path = .ok text ∧
    Toml.parse? (expandEnvironment world.environment text) = some document

/-- The resources in the document of a primary file. -/
def resourcesIn (document : Table) : List Value :=
  match document.lookup "resource" with
  | some (.array items) => items
  | _ => []

/-- The resources in the files of an include directory, in the order of the files. Each document is
    one resource. -/
def AreIncluded (world : World) : Option String → List Value → Prop
  | none, written => written = []
  | some dir, written => ∃ files, AreFiles world dir files ∧
      List.Forall₂ (fun f v => ∃ document, IsWritten world (FilePath.entry dir f) document ∧
        v = .table document) files written

/-- A resource is listed with the templates and the backends it was given. -/
structure Keeps (given listed : Resource) : Prop where
  templates : listed.templates = given.templates
  backends : listed.backends = given.backends

/-! ## Documents -/

theorem exists_isWritten {α : Type} {decode : Value → Except DecodeError α} {a : α}
    (h : parseFile world decode path = .ok a) :
    ∃ document, IsWritten world path document ∧ decode (.table document) = .ok a := by
  obtain ⟨text, hread, hparse⟩ := parseFile_eq_ok_iff.mp h
  unfold parse at hparse
  split at hparse
  · cases hparse
  · rename_i document hdocument
    refine ⟨document, ⟨text, hread, hdocument⟩, ?_⟩
    split at hparse
    · rename_i hdecode
      cases hparse
      exact hdecode
    · cases hparse

theorem IsWritten.hasDistinctNames {document : Table} (h : IsWritten world path document) :
    (Value.table document).HasDistinctNames := by
  obtain ⟨text, -, hparse⟩ := h
  exact Toml.hasDistinctNames_of_parse? hparse

/-! ## The primary file -/

theorem exists_items_of_decodeList {α : Type} {decode : Value → Except DecodeError α} {v : Value}
    {decoded : List α} (h : decodeList decode v = .ok decoded) : ∃ items, v = .array items := by
  unfold decodeList at h
  split at h
  · exact ⟨_, rfl⟩
  · cases h

/-- The resources of the primary file are decoded in order, and account for their backends. -/
theorem accounts_for_own {document : Table} {c : Configuration}
    (hdistinct : (Value.table document).HasDistinctNames)
    (h : decodeConfiguration (.table document) = .ok c) :
    List.Forall₂ (fun v r => decodeResource v = .ok r ∧ Accounts v r) (resourcesIn document)
      c.resources := by
  cases hdistinct with
  | table hnames hinner =>
    cases hlookup : document.lookup "resource" with
    | none =>
      have hresources : c.resources = [] :=
        takes_resources.part_eq (Toml.notMem_of_lookup hlookup) h
      rw [resourcesIn, hlookup, hresources]
      exact .nil
    | some v =>
      have hmem := Toml.mem_of_lookup hlookup
      have hdecode := takes_resources.decode_eq hnames hmem h
      obtain ⟨items, rfl⟩ := exists_items_of_decodeList hdecode
      rw [resourcesIn, hlookup]
      cases hinner _ hmem with
      | array hitems =>
        have hdecoded := (List.forall₂_and_left _ _).mpr ⟨hitems, forall₂_of_decodeList hdecode⟩
        exact hdecoded.imp fun v r ⟨hv, hr⟩ => ⟨hr, accounts_of_decodeResource hv hr⟩

theorem forall₂_mapIdx {α β : Type} {R : α → β → Prop} (f : Nat → α → β)
    (h : ∀ i a, R a (f i a)) (as : List α) : List.Forall₂ R as (as.mapIdx f) := by
  induction as generalizing f with
  | nil => exact .nil
  | cons a as ih =>
    rw [List.mapIdx_cons]
    exact .cons (h 0 a) (ih _ fun i => h (i + 1))

theorem keeps_nameByPosition (resources : List Resource) :
    List.Forall₂ Keeps (withTemplates resources) (nameByPosition resources) := by
  unfold nameByPosition
  rw [filter_isEmpty_eq]
  exact forall₂_mapIdx _ (fun _ _ => ⟨rfl, rfl⟩) _

/-! ## Include directories -/

theorem exists_written {dir : FilePath} {files : List (Octets × Resource)}
    (h : ∀ f ∈ files, parseFile world decodeResource (FilePath.entry dir f.1) = .ok f.2) :
    ∃ written, List.Forall₂ (fun f v => ∃ document, IsWritten world (FilePath.entry dir f) document ∧
        v = .table document) (files.map (·.1)) written ∧
      List.Forall₂ (fun v r => decodeResource v = .ok r ∧ Accounts v r) written
        (files.map (·.2)) := by
  induction files with
  | nil => exact ⟨[], .nil, .nil⟩
  | cons f files ih =>
    obtain ⟨hf, hfiles⟩ := List.forall_mem_cons.mp h
    obtain ⟨written, hwritten, haccounts⟩ := ih hfiles
    obtain ⟨document, hdocument, hdecode⟩ := exists_isWritten hf
    have haccount := accounts_of_decodeResource hdocument.hasDistinctNames hdecode
    exact ⟨.table document :: written, .cons ⟨document, hdocument, rfl⟩ hwritten,
      .cons ⟨hdecode, haccount⟩ haccounts⟩

/-- The resources of an include directory are decoded in order, and account for their backends. -/
theorem accounts_for_included {dir : Option String} {listed : List Resource}
    (h : IsIncluded world dir listed) : ∃ written decoded, AreIncluded world dir written ∧
      List.Forall₂ (fun v r => decodeResource v = .ok r ∧ Accounts v r) written decoded ∧
      List.Forall₂ Keeps (withTemplates decoded) listed := by
  cases dir with
  | none =>
    obtain rfl : listed = [] := h
    exact ⟨[], [], rfl, .nil, .nil⟩
  | some dir =>
    obtain ⟨files, hnames, hsorted, -, hparsed, hlisted⟩ := h
    obtain ⟨written, hwritten, haccounts⟩ := exists_written hparsed
    refine ⟨written, files.map (·.2), ⟨files.map (·.1), ⟨hnames, hsorted⟩, hwritten⟩,
      haccounts, ?_⟩
    rw [withTemplates, List.filter_map, List.forall₂_map_left_iff]
    exact hlisted.imp fun f r hnamed => ⟨hnamed.templates, hnamed.backends⟩

/-! ## The configuration -/

/-- The resources of the primary file and those of the include directory, in this order, are all
    decoded, with no backend of an unknown kind and none passed over. Those that have templates are
    listed with their backends. -/
theorem load_accounts_for_backends {c : Configuration} (h : (load world path).result = .ok c) :
    ∃ document included decoded, IsWritten world path document ∧
      AreIncluded world c.includeDir included ∧
      List.Forall₂ (fun v r => decodeResource v = .ok r ∧ Accounts v r)
        (resourcesIn document ++ included) decoded ∧
      List.Forall₂ Keeps (withTemplates decoded) c.resources := by
  obtain ⟨primary, listed, hparse, rfl, hlisted⟩ := load_result h
  obtain ⟨document, hdocument, hdecode⟩ := exists_isWritten hparse
  have hown := accounts_for_own hdocument.hasDistinctNames hdecode
  obtain ⟨included, decoded, hincluded, haccounts, hkeeps⟩ := accounts_for_included hlisted
  refine ⟨document, included, primary.resources ++ decoded, hdocument, hincluded,
    List.rel_append hown haccounts, ?_⟩
  rw [withTemplates, List.filter_append]
  exact List.rel_append (keeps_nameByPosition primary.resources) hkeeps

/-- A primary file with a resource that reads the environment but has no templates. -/
def environmentPrimary : String :=
  "include_dir = \"/etc/more\"\n[[resource]]\n[resource.backend.env]\nkeys = [\"port\"]\n"

/-- An included resource that reads a file. -/
def fileResource : String :=
  "template = [[\"a\", \"b\"]]\n[backend.file]\nfilepath = \"values\"\n"

/-- A world with these two files, one of them in the working directory. -/
def backendsWorld : World where
  files := {
    root := .directory [
      (Text.bytes "home", .directory [(Text.bytes "main", .file environmentPrimary.toUTF8)]),
      (Text.bytes "etc", .directory [(Text.bytes "more",
        .directory [(Text.bytes "web.toml", .file fileResource.toUTF8)])])]
    workingDirectory := [Text.bytes "home"] }

/-- What is loaded there. -/
def backendsConfiguration : Configuration where
  includeDir := some "/etc/more"
  resources := [{
    configuredName := some "web.toml"
    templates := [{ src := "a", dst := "b" }]
    backends := { file := some { filepath := "values" } } }]

/-- The environment section of the first resource is decoded, although the resource is left out. -/
theorem load_backends_accounts : (load backendsWorld "main").result = .ok backendsConfiguration ∧
    ∃ document included decoded, IsWritten backendsWorld "main" document ∧
      AreIncluded backendsWorld backendsConfiguration.includeDir included ∧
      List.Forall₂ (fun v r => decodeResource v = .ok r ∧ Accounts v r)
        (resourcesIn document ++ included) decoded ∧
      List.Forall₂ Keeps (withTemplates decoded) backendsConfiguration.resources := by
  have hprimary : parseFile backendsWorld decodeConfiguration "main" = .ok
      { includeDir := some "/etc/more"
        resources := [{ backends := { env := some { settings := { keys := ["port"] } } } }] } :=
    parseFile_of_find environmentPrimary rfl (by decide +kernel)
  have hweb : parseFile backendsWorld decodeResource
      (FilePath.entry "/etc/more" (Text.bytes "web.toml")) = .ok
      { templates := [{ src := "a", dst := "b" }]
        backends := { file := some { filepath := "values" } } } :=
    parseFile_of_find fileResource rfl (by decide +kernel)
  have hlist : backendsWorld.files.list "/etc/more" = .ok [Text.bytes "web.toml"] := rfl
  have hfiles : resourceFiles [Text.bytes "web.toml"] = [Text.bytes "web.toml"] :=
    resourceFiles_eq (by decide) (by decide)
  have hload : (load backendsWorld "main").result = .ok backendsConfiguration := by
    unfold load loadDirectory
    simp only [hprimary, hlist, hfiles]
    rw [loadFiles_of_ok hweb]
    rfl
  exact ⟨hload, load_accounts_for_backends hload⟩

end Steward.Config
