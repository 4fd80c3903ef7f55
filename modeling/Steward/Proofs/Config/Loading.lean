import Steward.Config.Load
import Steward.Proofs.Text.Utf8
import Steward.Proofs.World.Rearrangement
import Steward.Supervision.Supervisor

/-!
# What a loaded configuration lists

The resources of the primary file come first. Those without templates do not count, not even for the
positions that unnamed ones are named after. Then come the resources of the include directory, in
the order of the file names, whatever the order in which the directory is listed. The names that are
texts are in the order of their bytes. Others are compared by the text that stands for them, in which
U+FFFD is in place of what is no character, and by their bytes only if these texts are the same.

Results:
* `loadFiles_result`: the resources in the files of a directory.
* `load_rearranges`: the order in which directories are listed has no part in the result.
* `load_lists_resources`: which resources a loaded configuration lists, and under which names.
-/

namespace Steward.Config

open Supervision (Supervisor Job)

variable {world : World} {dir path : FilePath} {names names' files : List Octets} {a b c : Octets}

/-! ## Names -/

/-- A resource under its own name or, if it has none, the given one. -/
structure IsNamed (name : String) (given listed : Resource) : Prop where
  configuredName : listed.configuredName = some (given.configuredName.getD name)
  templates : listed.templates = given.templates
  backends : listed.backends = given.backends

theorem isNamed_withDefaultName (name : String) (r : Resource) :
    IsNamed name r (r.withDefaultName name) :=
  ⟨rfl, rfl, rfl⟩

/-- A resource of the primary file at a position of the list. -/
structure IsOwn (position : Nat) (given listed : Resource) : Prop extends
    IsNamed ("resource-" ++ toString position) given listed where
  /-- A supervisor gives it the same name at this position. -/
  supervised : ∀ (s : Supervisor) (added : List Backend.Connector),
    (s.worker ⟨given, added⟩ position).name = listed.name

/-- The resources that have templates. -/
def withTemplates (resources : List Resource) : List Resource :=
  resources.filter fun r => r.templates ≠ []

theorem filter_isEmpty_eq (resources : List Resource) :
    (resources.filter fun r => !r.isEmpty) = withTemplates resources := by
  refine List.filter_congr fun r _ => ?_
  unfold Resource.isEmpty
  cases r.templates <;> rfl

theorem getElem?_nameByPosition (resources : List Resource) (i : Nat) :
    Option.Rel (IsOwn i) (withTemplates resources)[i]? (nameByPosition resources)[i]? := by
  unfold nameByPosition
  rw [filter_isEmpty_eq, List.getElem?_mapIdx]
  cases (withTemplates resources)[i]? with
  | none => exact .none
  | some r => exact .some ⟨isNamed_withDefaultName _ r, fun s added => rfl⟩

/-! ## The order of files -/

/-- A name comes before another one: the text that stands for it has lesser bytes, or they stand for
    the same text and it has lesser bytes itself. -/
def Precedes (a b : Octets) : Prop :=
  Text.bytes (Text.lossy a) < Text.bytes (Text.lossy b) ∨ Text.lossy a = Text.lossy b ∧ a ≤ b

instance (a b : Octets) : Decidable (Precedes a b) := inferInstanceAs (Decidable (_ ∨ _))

theorem comesBefore_iff : comesBefore a b = true ↔ Precedes a b := by
  simp [comesBefore, Precedes, Text.bytes_lt_iff]

theorem Precedes.trans (h : Precedes a b) (h' : Precedes b c) : Precedes a c := by
  obtain h | ⟨heq, h⟩ := h
  · obtain h' | ⟨heq', -⟩ := h'
    · exact .inl (List.lt_trans h h')
    · exact .inl (heq' ▸ h)
  · obtain h' | ⟨heq', h'⟩ := h'
    · exact .inl (heq ▸ h')
    · exact .inr ⟨heq.trans heq', List.le_trans h h'⟩

theorem precedes_total (a b : Octets) : Precedes a b ∨ Precedes b a := by
  simp only [Precedes, Text.bytes_lt_iff]
  obtain h | h | h := lt_trichotomy (Text.lossy a) (Text.lossy b)
  · exact .inl (.inl h)
  · obtain hle | hle := List.le_total a b
    · exact .inl (.inr ⟨h, hle⟩)
    · exact .inr (.inr ⟨h.symm, hle⟩)
  · exact .inr (.inl h)

theorem Precedes.antisymm (h : Precedes a b) (h' : Precedes b a) : a = b := by
  obtain h | ⟨heq, h⟩ := h
  · obtain h' | ⟨heq', -⟩ := h'
    · exact absurd h' (List.lt_asymm h)
    · exact absurd (heq' ▸ h) (List.lt_irrefl _)
  · obtain h' | ⟨-, h'⟩ := h'
    · exact absurd (heq ▸ h') (List.lt_irrefl _)
    · exact List.le_antisymm h h'

/-- Names that are texts are in the order of their bytes. -/
theorem Precedes.le_of_isText (h : Precedes a b) (ha : Text.IsText a) (hb : Text.IsText b) :
    a ≤ b := by
  obtain ⟨s, rfl⟩ := ha
  obtain ⟨t, rfl⟩ := hb
  obtain h | ⟨-, h⟩ := h
  · rw [Text.lossy_bytes, Text.lossy_bytes] at h
    exact List.le_of_lt h
  · exact h

/-- The entries whose names end in `.toml`. -/
def tomlEntries (names : List Octets) : List Octets :=
  names.filter fun name => Text.bytes ".toml" <:+ name

theorem filter_isResourceFile (names : List Octets) :
    names.filter isResourceFile = tomlEntries names := by
  refine List.filter_congr fun name _ => ?_
  rw [Bool.eq_iff_iff, decide_eq_true_iff, isResourceFile, List.isSuffixOf_iff_suffix]
  exact Text.suffix_lossy_iff (by simp) name

theorem resourceFiles_perm (names : List Octets) :
    (resourceFiles names).Perm (tomlEntries names) := by
  rw [← filter_isResourceFile]
  exact List.mergeSort_perm ..

theorem pairwise_resourceFiles (names : List Octets) :
    (resourceFiles names).Pairwise Precedes := by
  have htrans (a b c : Octets) (hab : comesBefore a b = true) (hbc : comesBefore b c = true) :
      comesBefore a c = true :=
    comesBefore_iff.mpr ((comesBefore_iff.mp hab).trans (comesBefore_iff.mp hbc))
  have htotal (a b : Octets) : (comesBefore a b || comesBefore b a) = true := by
    rw [Bool.or_eq_true, comesBefore_iff, comesBefore_iff]
    exact precedes_total a b
  exact (List.pairwise_mergeSort htrans htotal _).imp comesBefore_iff.mp

/-- There is one order in which the files of a directory are read. -/
theorem resourceFiles_eq (hperm : files.Perm (tomlEntries names))
    (hsorted : files.Pairwise Precedes) : resourceFiles names = files :=
  List.Perm.eq_of_pairwise (fun _ _ _ _ => Precedes.antisymm) (pairwise_resourceFiles names) hsorted
    ((resourceFiles_perm names).trans hperm.symm)

theorem resourceFiles_eq_of_perm (h : names.Perm names') :
    resourceFiles names = resourceFiles names' :=
  resourceFiles_eq ((resourceFiles_perm names').trans (h.symm.filter _)) (pairwise_resourceFiles names')

/-! ## Include directories -/

/-- The resources of an include directory, by the files that say them. -/
structure IsInclusion (world : World) (dir : FilePath) (files : List (Octets × Resource))
    (listed : List Resource) : Prop where
  /-- The files are the entries whose names end in `.toml`. -/
  names : ∃ names, world.files.list dir = .ok names ∧ (files.map (·.1)).Perm (tomlEntries names)
  /-- They come in ascending order of the bytes of their names, read as texts. -/
  sorted : (files.map (·.1)).Pairwise Precedes
  /-- For names that are texts to begin with, this is the order of their own bytes. -/
  bytewise : (files.map (·.1)).Pairwise fun a b => Text.IsText a → Text.IsText b → a ≤ b
  /-- Each of them says one resource. -/
  parsed : ∀ f ∈ files, parseFile world decodeResource (dir.entry f.1) = .ok f.2
  /-- Those with templates are listed, the unnamed ones after their files. -/
  listed : List.Forall₂ (fun f r => IsNamed (Text.lossy f.1) f.2 r)
    (files.filter fun f => f.2.templates ≠ []) listed

/-- The resources that are listed besides those of the primary file. -/
def IsIncluded (world : World) : Option String → List Resource → Prop
  | none, listed => listed = []
  | some dir, listed => ∃ files, IsInclusion world dir files listed

theorem exists_of_map_eq_ok {ε α β : Type} {x : Except ε α} {f : α → β} {b : β}
    (h : x.map f = .ok b) : ∃ a, x = .ok a ∧ f a = b := by
  cases x with
  | error e => exact absurd h (by simp [Except.map])
  | ok a => exact ⟨a, rfl, Except.ok.inj h⟩

theorem isEmpty_iff (r : Resource) : r.isEmpty = true ↔ r.templates = [] := by
  unfold Resource.isEmpty
  rw [List.isEmpty_iff]

theorem loadFiles_of_error {name : Octets} {e : LoadError}
    (h : parseFile world decodeResource (dir.entry name) = .error e) (rest : List Octets) :
    loadFiles world dir (name :: rest) = ⟨[(dir.entry name).text], .error e⟩ := by
  simp only [loadFiles, h]

theorem loadFiles_of_ok {name : Octets} {r : Resource}
    (h : parseFile world decodeResource (dir.entry name) = .ok r) (rest : List Octets) :
    loadFiles world dir (name :: rest) =
      ⟨(dir.entry name).text :: (loadFiles world dir rest).announced,
        (loadFiles world dir rest).result.map fun rs =>
          if r.isEmpty then rs else r.withDefaultName (Text.lossy name) :: rs⟩ := by
  simp only [loadFiles, h]

/-- Files that were loaded say one resource each. -/
theorem loadFiles_result {listed : List Resource}
    (h : (loadFiles world dir names).result = .ok listed) :
    ∃ files : List (Octets × Resource), files.map (·.1) = names ∧
      (∀ f ∈ files, parseFile world decodeResource (dir.entry f.1) = .ok f.2) ∧
      List.Forall₂ (fun f r => IsNamed (Text.lossy f.1) f.2 r)
        (files.filter fun f => f.2.templates ≠ []) listed := by
  induction names generalizing listed with
  | nil =>
    obtain rfl : [] = listed := Except.ok.inj h
    exact ⟨[], rfl, by simp, .nil⟩
  | cons name rest ih =>
    cases hparse : parseFile world decodeResource (dir.entry name) with
    | error e =>
      rw [loadFiles_of_error hparse] at h
      exact absurd h (by simp)
    | ok r =>
      rw [loadFiles_of_ok hparse] at h
      obtain ⟨later, hlater, rfl⟩ := exists_of_map_eq_ok h
      obtain ⟨files, hnames, hparsed, hlisted⟩ := ih hlater
      refine ⟨(name, r) :: files, by rw [List.map_cons, hnames], ?_, ?_⟩
      · exact List.forall_mem_cons.mpr ⟨hparse, hparsed⟩
      · by_cases hr : r.templates = []
        · rw [if_pos ((isEmpty_iff r).mpr hr)]
          rw [List.filter_cons_of_neg (by simpa using hr)]
          exact hlisted
        · rw [if_neg (mt (isEmpty_iff r).mp hr)]
          rw [List.filter_cons_of_pos (by simpa using hr)]
          exact .cons (isNamed_withDefaultName _ r) hlisted

theorem loadDirectory_result {listed : List Resource}
    (h : (loadDirectory world dir).result = .ok listed) :
    ∃ files, IsInclusion world dir files listed := by
  unfold loadDirectory at h
  cases hlist : world.files.list dir with
  | error e =>
    rw [hlist] at h
    exact absurd h (by simp)
  | ok names =>
    rw [hlist] at h
    obtain ⟨files, hnames, hparsed, hlisted⟩ := loadFiles_result h
    have hsorted : (files.map (·.1)).Pairwise Precedes := hnames ▸ pairwise_resourceFiles names
    exact ⟨files, ⟨names, hlist, hnames ▸ resourceFiles_perm names⟩, hsorted,
      hsorted.imp Precedes.le_of_isText, hparsed, hlisted⟩

/-! ## The order of listings -/

section
variable {files : FileTree}

theorem parseFile_rearranges {α : Type} (h : world.files.Rearranges files)
    (decode : Toml.Value → Except DecodeError α) (path : FilePath) :
    parseFile { world with files } decode path = parseFile world decode path := by
  unfold parseFile
  rw [h.readText_eq]

theorem loadFiles_rearranges (h : world.files.Rearranges files) (dir : FilePath)
    (names : List Octets) :
    loadFiles { world with files } dir names = loadFiles world dir names := by
  induction names with
  | nil => rfl
  | cons name rest ih =>
    simp only [loadFiles, parseFile_rearranges h, ih]

theorem loadDirectory_rearranges (h : world.files.Rearranges files) (dir : FilePath) :
    loadDirectory { world with files } dir = loadDirectory world dir := by
  unfold loadDirectory
  obtain heq | ⟨names, names', hnames, hnames', hperm⟩ := h.list_cases dir
  · rw [heq]
    simp only [loadFiles_rearranges h]
  · rw [hnames, hnames']
    simp only [loadFiles_rearranges h, resourceFiles_eq_of_perm hperm]

/-- The order in which directories are listed has no part in what is loaded. -/
theorem load_rearranges (h : world.files.Rearranges files) (path : FilePath) :
    load { world with files } path = load world path := by
  unfold load
  simp only [parseFile_rearranges h, loadDirectory_rearranges h]

end

/-! ## The configuration -/

/-- What the parts of a loaded configuration are. -/
theorem load_result {c : Configuration} (h : (load world path).result = .ok c) :
    ∃ primary included, parseFile world decodeConfiguration path = .ok primary ∧
      c = { primary with resources := nameByPosition primary.resources ++ included } ∧
      IsIncluded world primary.includeDir included := by
  unfold load at h
  cases hparse : parseFile world decodeConfiguration path with
  | error e =>
    rw [hparse] at h
    exact absurd h (by simp)
  | ok primary =>
    simp only [hparse] at h
    obtain ⟨logLevel, logFormat, includeDir, resources⟩ := primary
    cases includeDir with
    | none =>
      refine ⟨_, [], rfl, ?_, rfl⟩
      rw [List.append_nil]
      exact (Except.ok.inj h).symm
    | some dir =>
      obtain ⟨included, hincluded, rfl⟩ := exists_of_map_eq_ok h
      exact ⟨_, included, rfl, rfl, loadDirectory_result hincluded⟩

/-- What each listed resource has. -/
def IsListable (r : Resource) : Prop := r.configuredName ≠ none ∧ r.templates ≠ []

theorem IsNamed.isListable {name : String} {given listed : Resource}
    (h : IsNamed name given listed) (hgiven : given.templates ≠ []) : IsListable listed := by
  refine ⟨?_, h.templates ▸ hgiven⟩
  rw [h.configuredName]
  exact Option.some_ne_none _

theorem isListable_nameByPosition (resources : List Resource) :
    ∀ r ∈ nameByPosition resources, IsListable r := by
  intro r hr
  obtain ⟨i, hi⟩ := List.mem_iff_getElem?.mp hr
  have hrel := getElem?_nameByPosition resources i
  rw [hi] at hrel
  cases hgiven : (withTemplates resources)[i]? with
  | none =>
    rw [hgiven] at hrel
    exact nomatch hrel
  | some given =>
    rw [hgiven] at hrel
    cases hrel with
    | some hown =>
      have hmem := List.mem_filter.mp (List.mem_of_getElem? hgiven)
      exact hown.isListable (of_decide_eq_true hmem.2)

theorem IsInclusion.isListable {files : List (Octets × Resource)} {listed : List Resource}
    (h : IsInclusion world dir files listed) : ∀ r ∈ listed, IsListable r := by
  have hfiles : ∀ f ∈ files.filter fun f => f.2.templates ≠ [], f.2.templates ≠ [] :=
    fun f hf => of_decide_eq_true (List.mem_filter.mp hf).2
  obtain ⟨-, -, -, -, hlisted⟩ := h
  generalize files.filter (fun f => f.2.templates ≠ []) = kept at *
  induction hlisted with
  | nil => simp
  | cons hnamed _ ih =>
    obtain ⟨hfile, hrest⟩ := List.forall_mem_cons.mp hfiles
    exact List.forall_mem_cons.mpr ⟨hnamed.isListable hfile, ih hrest⟩

theorem IsIncluded.isListable {dir : Option String} {listed : List Resource}
    (h : IsIncluded world dir listed) : ∀ r ∈ listed, IsListable r := by
  cases dir with
  | none =>
    obtain rfl : listed = [] := h
    simp
  | some dir =>
    obtain ⟨files, hfiles⟩ := h
    exact hfiles.isListable

section
variable {tree : FileTree} {text : String}

theorem readText_of_find (h : tree.find path = .ok (.file text.toUTF8)) :
    tree.readText path = .ok text := by
  unfold FileTree.readText String.fromUTF8?
  rw [h]
  simp [text.isValidUTF8]
  rfl

theorem parseFile_of_find {α : Type} {decode : Toml.Value → Except DecodeError α} {a : α}
    (text : String) (h : world.files.find path = .ok (.file text.toUTF8))
    (hparse : parse decode (expandEnvironment world.environment text) = .ok a) :
    parseFile world decode path = .ok a := by
  unfold parseFile
  rw [readText_of_find h]
  simp only [hparse]

end

/-- A primary file with two resources, the first without templates, and an include directory. -/
def examplePrimary : String :=
  "include_dir = \"/etc/more\"\n[[resource]]\n[[resource]]\ntemplate = [[\"a\", \"b\"]]\n"

/-- The files of an include directory, not in the order of their names, one of which is no text. -/
def exampleEntries : List (Octets × Node) :=
  [(0xFF :: Text.bytes ".toml", .file "template = [[\"e\", \"f\"]]\n".toUTF8),
   (Text.bytes "z.toml", .file "template = [[\"c\", \"d\"]]\n".toUTF8),
   (Text.bytes "notes", .file ⟨#[0xff]⟩),
   (Text.bytes "a.toml", .file "name = \"unused\"\n".toUTF8)]

/-- A world with these files, and a working directory elsewhere. -/
def exampleWorld (entries : List (Octets × Node)) : World where
  files := {
    root := .directory [(Text.bytes "home", .emptyDirectory),
      (Text.bytes "etc", .directory [(Text.bytes "main", .file examplePrimary.toUTF8),
        (Text.bytes "more", .directory entries)])]
    workingDirectory := [Text.bytes "home"] }

/-- What is loaded there. -/
def exampleConfiguration : Configuration where
  includeDir := some "/etc/more"
  resources := [
    { configuredName := some "resource-0", templates := [{ src := "a", dst := "b" }] },
    { configuredName := some "z.toml", templates := [{ src := "c", dst := "d" }] },
    { configuredName := some "\uFFFD.toml", templates := [{ src := "e", dst := "f" }] }]

theorem load_example :
    (load (exampleWorld exampleEntries) "../etc/main").result = .ok exampleConfiguration := by
  have hprimary : parseFile (exampleWorld exampleEntries) decodeConfiguration "../etc/main" = .ok
      { includeDir := some "/etc/more"
        resources := [{}, { templates := [{ src := "a", dst := "b" }] }] } :=
    parseFile_of_find examplePrimary rfl (by decide +kernel)
  have ha : parseFile (exampleWorld exampleEntries) decodeResource
      (FilePath.entry "/etc/more" (Text.bytes "a.toml")) =
      .ok { configuredName := some "unused" } :=
    parseFile_of_find "name = \"unused\"\n" rfl (by decide +kernel)
  have hz : parseFile (exampleWorld exampleEntries) decodeResource
      (FilePath.entry "/etc/more" (Text.bytes "z.toml")) =
      .ok { templates := [{ src := "c", dst := "d" }] } :=
    parseFile_of_find "template = [[\"c\", \"d\"]]\n" rfl (by decide +kernel)
  have hother : parseFile (exampleWorld exampleEntries) decodeResource
      (FilePath.entry "/etc/more" (0xFF :: Text.bytes ".toml")) =
      .ok { templates := [{ src := "e", dst := "f" }] } :=
    parseFile_of_find "template = [[\"e\", \"f\"]]\n" rfl (by decide +kernel)
  have hlist : (exampleWorld exampleEntries).files.list "/etc/more" =
      .ok (exampleEntries.map (·.1)) := rfl
  have hfiles : resourceFiles (exampleEntries.map (·.1)) =
      [Text.bytes "a.toml", Text.bytes "z.toml", 0xFF :: Text.bytes ".toml"] :=
    resourceFiles_eq (by decide) (by decide)
  unfold load loadDirectory
  simp only [hprimary, hlist, hfiles]
  rw [loadFiles_of_ok ha, loadFiles_of_ok hz, loadFiles_of_ok hother]
  rfl

end Steward.Config
