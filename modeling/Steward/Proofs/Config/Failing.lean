import Steward.Proofs.Config.Loading

/-!
# Where loading fails

Loading goes through its steps in a fixed order: it reads and parses the primary file, lists the
include directory, and reads and parses the files there in ascending order of their names, each of
which is announced first. The first step that fails ends it. So the error is that of the first
failing step, the announced files are those up to it, and nothing that would come later counts.

Results:
* `load_of_failsAt`, `load_of_succeeds`, `fails_or_succeeds`: what comes of a loading that fails at
  a place, and of one that does not fail; there are no others.
* `FailsAt.congr`: worlds that are the same up to the place of the failure fail there alike.
* `load_stops_at_first_failure`: when loading fails, with which error, and what was announced.
-/

namespace Steward.Config

variable {world world' : World} {path dir : FilePath} {name : Octets} {names files : List Octets}
  {e : LoadError}

/-! ## Steps -/

/-- A file can be read, and its text, expanded, says a value. -/
def FileSays {α : Type} (world : World) (decode : Toml.Value → Except DecodeError α)
    (path : FilePath) (a : α) : Prop :=
  ∃ text, world.files.readText path = .ok text ∧
    parse decode (expandEnvironment world.environment text) = .ok a

/-- How a file fails: it cannot be read, or its text, expanded, cannot be parsed. -/
inductive FileFails {α : Type} (world : World) (decode : Toml.Value → Except DecodeError α)
    (path : FilePath) : LoadError → Prop where
  | read {cause : IoError} (h : world.files.readText path = .error cause) :
      FileFails world decode path (.read path cause)
  | parse {text : String} {cause : ParseError} (hread : world.files.readText path = .ok text)
      (h : parse decode (expandEnvironment world.environment text) = .error cause) :
      FileFails world decode path (.parse path cause)

/-- The files of an include directory that are read, in this order: the entries whose names end in
    `.toml`, in ascending order of the names. -/
structure AreFiles (world : World) (dir : FilePath) (files : List Octets) : Prop where
  listed : ∃ names, world.files.list dir = .ok names ∧ files.Perm (tomlEntries names)
  sorted : files.Pairwise Precedes

/-- Where a loading fails. -/
inductive Place where
  /-- At the primary file. -/
  | primary
  /-- At the listing of the include directory. -/
  | directory (dir : FilePath)
  /-- At a file of the include directory, behind others. -/
  | file (dir : FilePath) (before : List Octets) (name : Octets)

/-- How the files of a directory are announced. -/
def announcement (dir : FilePath) (files : List Octets) : List String :=
  files.map fun f => (dir.entry f).text

/-- The files that have been announced when a loading fails at a place. -/
def Place.announced : Place → List String
  | primary | directory _ => []
  | file dir before name => announcement dir (before ++ [name])

/-- A loading fails at a place: all steps before it succeed. -/
inductive FailsAt (world : World) (path : FilePath) : Place → LoadError → Prop where
  | primary {e : LoadError} (h : FileFails world decodeConfiguration path e) :
      FailsAt world path .primary e
  | directory {c : Configuration} {dir : String} {cause : IoError}
      (hprimary : FileSays world decodeConfiguration path c) (hdir : c.includeDir = some dir)
      (h : world.files.list dir = .error cause) :
      FailsAt world path (.directory dir) (.includeDir dir cause)
  | file {c : Configuration} {dir : String} {name : Octets} {before after : List Octets}
      {e : LoadError}
      (hprimary : FileSays world decodeConfiguration path c) (hdir : c.includeDir = some dir)
      (hfiles : AreFiles world dir (before ++ name :: after))
      (hbefore : ∀ f ∈ before, ∃ r, FileSays world decodeResource (FilePath.entry dir f) r)
      (h : FileFails world decodeResource (FilePath.entry dir name) e) :
      FailsAt world path (.file dir before name) e

/-- All steps of a loading succeed, and the given files are announced. -/
inductive Succeeds (world : World) (path : FilePath) : List String → Prop where
  | alone {c : Configuration} (hprimary : FileSays world decodeConfiguration path c)
      (hdir : c.includeDir = none) : Succeeds world path []
  | including {c : Configuration} {dir : String} {files : List Octets}
      (hprimary : FileSays world decodeConfiguration path c) (hdir : c.includeDir = some dir)
      (hfiles : AreFiles world dir files)
      (h : ∀ f ∈ files, ∃ r, FileSays world decodeResource (FilePath.entry dir f) r) :
      Succeeds world path (announcement dir files)

/-- Another world is the same up to the place where a loading fails. Whatever comes behind may
    differ: other files may stand there, or the same ones with other contents. -/
structure AgreesUpTo (world world' : World) (path : FilePath) (place : Place) : Prop where
  environment : world'.environment = world.environment
  primary : world'.files.readText path = world.files.readText path
  directory : ∀ dir, place = .directory dir → world'.files.list dir = world.files.list dir
  files : ∀ dir before name, place = .file dir before name →
    (∃ after, AreFiles world' dir (before ++ name :: after)) ∧
      ∀ f ∈ before ++ [name],
        world'.files.readText (FilePath.entry dir f) = world.files.readText (FilePath.entry dir f)

/-! ## Files -/

section
variable {α : Type} {decode : Toml.Value → Except DecodeError α} {a : α}

theorem parseFile_eq_ok_iff :
    parseFile world decode path = .ok a ↔ FileSays world decode path a := by
  unfold parseFile FileSays
  cases world.files.readText path with
  | error cause => simp
  | ok text =>
    cases hparse : parse decode (expandEnvironment world.environment text) <;> simp [hparse]

theorem parseFile_eq_error_iff :
    parseFile world decode path = .error e ↔ FileFails world decode path e := by
  constructor
  · intro h
    unfold parseFile at h
    cases hread : world.files.readText path with
    | error cause =>
      rw [hread] at h
      cases h
      exact .read hread
    | ok text =>
      simp only [hread] at h
      cases hparse : parse decode (expandEnvironment world.environment text) with
      | error cause =>
        rw [hparse] at h
        cases h
        exact .parse hread hparse
      | ok a =>
        rw [hparse] at h
        cases h
  · intro h
    unfold parseFile
    cases h with
    | read h => simp only [h]
    | parse hread h => simp only [hread, h]

theorem FileSays.congr (henv : world'.environment = world.environment)
    (hread : world'.files.readText path = world.files.readText path)
    (h : FileSays world decode path a) : FileSays world' decode path a := by
  unfold FileSays at *
  rw [henv, hread]
  exact h

theorem FileFails.congr (henv : world'.environment = world.environment)
    (hread : world'.files.readText path = world.files.readText path)
    (h : FileFails world decode path e) : FileFails world' decode path e := by
  cases h with
  | read h => exact .read (hread.trans h)
  | parse htext h => exact .parse (hread.trans htext) (henv ▸ h)

end

theorem areFiles_resourceFiles (h : world.files.list dir = .ok names) :
    AreFiles world dir (resourceFiles names) where
  listed := ⟨names, h, resourceFiles_perm names⟩
  sorted := pairwise_resourceFiles names

/-- The files of a directory are read in this order. -/
theorem AreFiles.loadDirectory_eq (h : AreFiles world dir files) :
    loadDirectory world dir = loadFiles world dir files := by
  obtain ⟨⟨names, hlist, hperm⟩, hsorted⟩ := h
  unfold loadDirectory
  simp only [hlist, resourceFiles_eq hperm hsorted]

/-- Files that all say a resource are all announced. -/
theorem loadFiles_of_forall
    (h : ∀ f ∈ files, ∃ r, FileSays world decodeResource (FilePath.entry dir f) r) :
    ∃ rs, loadFiles world dir files = ⟨announcement dir files, .ok rs⟩ := by
  induction files with
  | nil => exact ⟨[], rfl⟩
  | cons name rest ih =>
    obtain ⟨⟨r, hr⟩, hrest⟩ := List.forall_mem_cons.mp h
    obtain ⟨rs, hrs⟩ := ih hrest
    rw [loadFiles_of_ok (parseFile_eq_ok_iff.mpr hr), hrs]
    exact ⟨_, rfl⟩

/-- The first file that fails is the last one that is announced. -/
theorem loadFiles_of_fails {before : List Octets}
    (hbefore : ∀ f ∈ before, ∃ r, FileSays world decodeResource (FilePath.entry dir f) r)
    (h : FileFails world decodeResource (FilePath.entry dir name) e) (after : List Octets) :
    loadFiles world dir (before ++ name :: after) =
      ⟨announcement dir (before ++ [name]), .error e⟩ := by
  induction before with
  | nil => exact loadFiles_of_error (parseFile_eq_error_iff.mpr h) after
  | cons first before ih =>
    obtain ⟨⟨r, hr⟩, hbefore⟩ := List.forall_mem_cons.mp hbefore
    rw [List.cons_append, loadFiles_of_ok (parseFile_eq_ok_iff.mpr hr), ih hbefore]
    rfl

/-- Of files in a row, all say a resource, or there is a first one that fails. -/
theorem forall_says_or_fails (world : World) (dir : FilePath) (files : List Octets) :
    (∀ f ∈ files, ∃ r, FileSays world decodeResource (FilePath.entry dir f) r) ∨
      ∃ before name after e, files = before ++ name :: after ∧
        (∀ f ∈ before, ∃ r, FileSays world decodeResource (FilePath.entry dir f) r) ∧
        FileFails world decodeResource (FilePath.entry dir name) e := by
  induction files with
  | nil => exact .inl (by simp)
  | cons name rest ih =>
    cases hparse : parseFile world decodeResource (FilePath.entry dir name) with
    | error e =>
      exact .inr ⟨[], name, rest, e, rfl, by simp, parseFile_eq_error_iff.mp hparse⟩
    | ok r =>
      have hname : ∃ r, FileSays world decodeResource (FilePath.entry dir name) r :=
        ⟨r, parseFile_eq_ok_iff.mp hparse⟩
      obtain hall | ⟨before, failing, after, e, rfl, hbefore, hfails⟩ := ih
      · exact .inl (List.forall_mem_cons.mpr ⟨hname, hall⟩)
      · exact .inr ⟨name :: before, failing, after, e, rfl,
          List.forall_mem_cons.mpr ⟨hname, hbefore⟩, hfails⟩

/-! ## The loading -/

theorem load_of_directory {c : Configuration} {dir : String}
    (hprimary : FileSays world decodeConfiguration path c) (hdir : c.includeDir = some dir) :
    load world path = ⟨(loadDirectory world dir).announced,
      (loadDirectory world dir).result.map fun rs =>
        { c with resources := nameByPosition c.resources ++ rs }⟩ := by
  unfold load
  simp only [parseFile_eq_ok_iff.mpr hprimary, hdir]

/-- A loading that fails at a place ends with its error. -/
theorem load_of_failsAt {place : Place} (h : FailsAt world path place e) :
    load world path = ⟨place.announced, .error e⟩ := by
  cases h with
  | primary h =>
    unfold load
    simp only [parseFile_eq_error_iff.mpr h]
    rfl
  | directory hprimary hdir h =>
    rw [load_of_directory hprimary hdir]
    unfold loadDirectory
    simp only [h]
    rfl
  | file hprimary hdir hfiles hbefore h =>
    rw [load_of_directory hprimary hdir, hfiles.loadDirectory_eq, loadFiles_of_fails hbefore h]
    rfl

/-- A loading of which no step fails gives a configuration. -/
theorem load_of_succeeds {announced : List String} (h : Succeeds world path announced) :
    ∃ c, load world path = ⟨announced, .ok c⟩ := by
  cases h with
  | alone hprimary hdir =>
    unfold load
    simp only [parseFile_eq_ok_iff.mpr hprimary, hdir]
    exact ⟨_, rfl⟩
  | including hprimary hdir hfiles h =>
    obtain ⟨rs, hrs⟩ := loadFiles_of_forall h
    rw [load_of_directory hprimary hdir, hfiles.loadDirectory_eq, hrs]
    exact ⟨_, rfl⟩

theorem fails_or_succeeds (world : World) (path : FilePath) :
    (∃ place e, FailsAt world path place e) ∨ ∃ announced, Succeeds world path announced := by
  cases hparse : parseFile world decodeConfiguration path with
  | error e => exact .inl ⟨_, _, .primary (parseFile_eq_error_iff.mp hparse)⟩
  | ok c =>
    have hprimary := parseFile_eq_ok_iff.mp hparse
    cases hdir : c.includeDir with
    | none => exact .inr ⟨_, .alone hprimary hdir⟩
    | some dir =>
      cases hlist : world.files.list dir with
      | error cause => exact .inl ⟨_, _, .directory hprimary hdir hlist⟩
      | ok names =>
        have hfiles := areFiles_resourceFiles hlist
        obtain hall | ⟨before, name, after, e, hsplit, hbefore, hfails⟩ :=
          forall_says_or_fails world dir (resourceFiles names)
        · exact .inr ⟨_, .including hprimary hdir hfiles hall⟩
        · exact .inl ⟨_, _, .file hprimary hdir (hsplit ▸ hfiles) hbefore hfails⟩

/-- Worlds that are the same up to the place of the failure fail there alike. -/
theorem FailsAt.congr {place : Place} (h : FailsAt world path place e)
    (hagrees : AgreesUpTo world world' path place) : FailsAt world' path place e := by
  obtain ⟨henv, hread, hlist, hfiles⟩ := hagrees
  cases h with
  | primary h => exact .primary (h.congr henv hread)
  | directory hprimary hdir h =>
    exact .directory (hprimary.congr henv hread) hdir ((hlist _ rfl).trans h)
  | @file c dir name before after e hprimary hdir _ hbefore h =>
    -- Other files may be listed behind the one that fails.
    obtain ⟨⟨after', hfiles'⟩, htexts⟩ := hfiles dir before name rfl
    have hname := htexts name (by simp)
    refine .file (hprimary.congr henv hread) hdir hfiles' ?_ (h.congr henv hname)
    intro f hf
    obtain ⟨r, hr⟩ := hbefore f hf
    exact ⟨r, hr.congr henv (htexts f (List.mem_append_left _ hf))⟩

/-- Loading gives a configuration exactly if no step fails; then all files of the include directory
    have been announced. Otherwise it gives the error of the first step that fails, and the files up
    to that step have been announced; what would come behind has no part in it. -/
theorem load_stops_at_first_failure (world : World) (path : FilePath) (announced : List String) :
    ((∃ c, load world path = ⟨announced, .ok c⟩) ↔ Succeeds world path announced) ∧
    (∀ e, load world path = ⟨announced, .error e⟩ ↔
      ∃ place, FailsAt world path place e ∧ place.announced = announced) ∧
    ∀ place e, FailsAt world path place e → ∀ world', AgreesUpTo world world' path place →
      load world' path = load world path := by
  refine ⟨⟨?_, load_of_succeeds⟩, fun e => ⟨?_, ?_⟩, ?_⟩
  · rintro ⟨c, hload⟩
    obtain ⟨place, e, hfails⟩ | ⟨announced', hsucceeds⟩ := fails_or_succeeds world path
    · rw [load_of_failsAt hfails] at hload
      cases hload
    · obtain ⟨c', hload'⟩ := load_of_succeeds hsucceeds
      rw [hload'] at hload
      cases hload
      exact hsucceeds
  · intro hload
    obtain ⟨place, e', hfails⟩ | ⟨announced', hsucceeds⟩ := fails_or_succeeds world path
    · rw [load_of_failsAt hfails] at hload
      cases hload
      exact ⟨place, hfails, rfl⟩
    · obtain ⟨c, hload'⟩ := load_of_succeeds hsucceeds
      rw [hload'] at hload
      cases hload
  · rintro ⟨place, hfails, rfl⟩
    exact load_of_failsAt hfails
  · intro place e hfails world' hagrees
    rw [load_of_failsAt hfails, load_of_failsAt (hfails.congr hagrees)]

end Steward.Config
