import Steward.Backend.FileStore
import Steward.Proofs.Backend.Pairs
import Steward.Proofs.Backend.VariableNames

/-!
# What stores answer

A store is asked for the pairs that it knows under some keys. The store of a document answers just
these pairs. The store of an environment compares names as texts: it answers these pairs, and in
addition those of the variables whose names go on behind the last segment of a key without an
underscore in between.

Results:
* `FileStore.select_answers`: a document answers the pairs under the keys.
* `EnvironmentStore.find_eq_some_iff`: an environment answers the pairs whose keys begin with the
  text of a key.
* `EnvironmentStore.find_answers_iff`: when an environment answers the pairs under the keys.
* `lookups_answer`: both stores on every list of keys made of segments.
-/

namespace Steward.Backend

open Key (IsSegmented LiesUnder Lengthens)

/-- An answer consists of the known pairs that lie under one of some keys. -/
def Answers (answer known : Pairs) (keys : List String) : Prop :=
  ∀ key text, answer[key]? = some text ↔
    known[key]? = some text ∧ ∃ wanted ∈ keys, LiesUnder key wanted

/-- A key under none of some keys that lengthens the last segment of one of them. -/
def Strays (keys : List String) (key : String) : Prop :=
  (∃ wanted ∈ keys, Lengthens key wanted) ∧ ∀ wanted ∈ keys, ¬LiesUnder key wanted

variable {keys : List String} {key text wanted : String}

theorem exists_prefix_iff : (∃ wanted ∈ keys, wanted.toList <+: key.toList) ↔
    (∃ wanted ∈ keys, LiesUnder key wanted) ∨ Strays keys key := by
  simp only [Key.prefix_iff, and_or_left, exists_or, Strays]
  by_cases hunder : ∃ wanted ∈ keys, LiesUnder key wanted
  · simp [hunder]
  · have hnone : ∀ wanted ∈ keys, ¬LiesUnder key wanted := by simpa using hunder
    simp only [hunder, false_or]
    exact (and_iff_left hnone).symm

/-! ## Documents -/

namespace FileStore

variable {world : World} {path : String} {all : Pairs}

theorem head?_keyOf (path : List String) : (keyOf path).toList.head? = some '/' := by
  rw [keyOf]
  cases path with
  | nil => rfl
  | cons segment path => simp [String.toList_join]

/-- The keys of a document begin with a slash. -/
theorem head?_of_read (hread : read world path = .ok all) (h : all[key]? = some text) :
    key.toList.head? = some '/' := by
  unfold read at hread
  split at hread
  · cases hread
  · split at hread
    · cases hread
    · cases hread
      obtain ⟨pre, post, heq, -⟩ := Pairs.getElem?_ofList_eq_some_iff.mp h
      have hmem : (key, text) ∈ pre ++ (key, text) :: post := by simp
      rw [← heq] at hmem
      obtain ⟨leaf, -, hleaf⟩ := List.mem_map.mp hmem
      rw [← (Prod.mk.inj hleaf).1]
      exact head?_keyOf leaf.path

/-- A document answers the pairs under the keys. -/
theorem select_answers (hkeys : ∀ wanted ∈ keys, IsSegmented wanted)
    (hread : read world path = .ok all) : Answers (select all keys) all keys := by
  intro key text
  rw [select, Pairs.getElem?_filter_eq_some_iff, List.any_eq_true]
  refine and_congr_right fun h => exists_congr fun wanted => and_congr_right fun hwanted => ?_
  exact Key.under_iff (hkeys wanted hwanted) (head?_of_read hread h)

end FileStore

/-! ## Environments -/

namespace EnvironmentStore

variable {env : Environment}

/-- The pair of a variable. -/
def pairOf (v : String × String) : String × String := (String.ofList (keyOf v.1.toList), v.2)

/-- The pairs of all variables. -/
def known (env : Environment) : Pairs := .ofList (env.entries.map pairOf)

/-- Some key finds a variable exactly if the key of the variable begins with the text of it. -/
theorem any_finds_eq (hkeys : ∀ wanted ∈ keys, IsSegmented wanted) {v : String × String}
    (hname : IsVariableName v.1) : (keys.any fun wanted => finds wanted v.1) =
      keys.any fun wanted => wanted.toList.isPrefixOf (pairOf v).1.toList := by
  rw [Bool.eq_iff_iff, List.any_eq_true, List.any_eq_true]
  refine exists_congr fun wanted => and_congr_right fun hwanted => ?_
  rw [finds_iff (hkeys wanted hwanted) hname.isNameChar, List.isPrefixOf_iff_prefix, pairOf,
    String.toList_ofList]

/-- An environment answers the pairs whose keys begin with the text of a key. -/
theorem find_eq_some_iff (hkeys : ∀ wanted ∈ keys, IsSegmented wanted)
    (hnames : ∀ v ∈ env.entries, IsVariableName v.1) :
    (find env keys)[key]? = some text ↔
      (known env)[key]? = some text ∧ ∃ wanted ∈ keys, wanted.toList <+: key.toList := by
  let begins (key : String) : Bool := keys.any fun wanted => wanted.toList.isPrefixOf key.toList
  have hfind : find env keys = .ofList ((env.entries.map pairOf).filter fun x => begins x.1) := by
    rw [find, List.filter_map]
    exact congrArg (fun entries => Std.ExtTreeMap.ofList (List.map pairOf entries))
      (List.filter_congr fun v hv => any_finds_eq hkeys (hnames v hv))
  have hbegins : begins key = true ↔ ∃ wanted ∈ keys, wanted.toList <+: key.toList := by
    simp only [begins, List.any_eq_true, List.isPrefixOf_iff_prefix]
  rw [hfind, Pairs.getElem?_ofList_filter, ← hbegins, ← known]
  split <;> simp [*]

/-- An environment answers the pairs under the keys, and the ones that stray. -/
theorem find_eq_some_iff_strays (hkeys : ∀ wanted ∈ keys, IsSegmented wanted)
    (hnames : ∀ v ∈ env.entries, IsVariableName v.1) (key text : String) :
    (find env keys)[key]? = some text ↔ (known env)[key]? = some text ∧
      ((∃ wanted ∈ keys, LiesUnder key wanted) ∨ Strays keys key) := by
  rw [find_eq_some_iff hkeys hnames, exists_prefix_iff]

/-- An environment answers the pairs under the keys exactly if no variable of it strays. -/
theorem find_answers_iff (hkeys : ∀ wanted ∈ keys, IsSegmented wanted)
    (hnames : ∀ v ∈ env.entries, IsVariableName v.1) :
    Answers (find env keys) (known env) keys ↔ ∀ key ∈ known env, ¬Strays keys key := by
  have hfind := find_eq_some_iff_strays hkeys hnames
  constructor
  · intro hanswers key hkey hstrays
    obtain ⟨text, htext⟩ :=
      Option.isSome_iff_exists.mp (Std.ExtTreeMap.mem_iff_isSome_getElem?.mp hkey)
    obtain ⟨-, wanted, hwanted, hunder⟩ :=
      (hanswers key text).mp ((hfind key text).mpr ⟨htext, .inr hstrays⟩)
    exact hstrays.2 wanted hwanted hunder
  · intro hnone key text
    refine (hfind key text).trans (and_congr_right fun htext => or_iff_left ?_)
    exact hnone key (Std.ExtTreeMap.mem_iff_isSome_getElem?.mpr (by simp [htext]))

end EnvironmentStore

/-! ## Both stores -/

/-- On keys made of segments a document that can be read answers the pairs under the keys. An
    environment whose names are in upper case answers these pairs and the ones that stray, and
    therefore nothing else exactly if none strays. -/
theorem lookups_answer (hkeys : ∀ wanted ∈ keys, IsSegmented wanted) :
    (∀ world path all, FileStore.read world path = .ok all →
      ∃ answer, FileStore.lookup path world keys = .ok answer ∧ Answers answer all keys) ∧
    ∀ world : World, (∀ v ∈ world.environment.entries, EnvironmentStore.IsVariableName v.1) →
      ∃ answer, EnvironmentStore.lookup world keys = .ok answer ∧
        (∀ key text, answer[key]? = some text ↔
          (EnvironmentStore.known world.environment)[key]? = some text ∧
            ((∃ wanted ∈ keys, LiesUnder key wanted) ∨ Strays keys key)) ∧
        (Answers answer (EnvironmentStore.known world.environment) keys ↔
          ∀ key ∈ EnvironmentStore.known world.environment, ¬Strays keys key) := by
  constructor
  · intro world path all hread
    refine ⟨FileStore.select all keys, ?_, FileStore.select_answers hkeys hread⟩
    simp only [FileStore.lookup, hread]
  · intro world hnames
    exact ⟨EnvironmentStore.find world.environment keys, rfl,
      EnvironmentStore.find_eq_some_iff_strays hkeys hnames,
      EnvironmentStore.find_answers_iff hkeys hnames⟩

/-! ### A name that begins with another name -/

/-- A world in which both stores know `/app` and `/apple`. -/
def appleWorld : World where
  environment := ⟨[("APP", "x"), ("APPLE", "y")]⟩
  files := {
    root := .directory [(Text.bytes "app.yml", .file "app: x\napple: y\n".toUTF8)]
    workingDirectory := [] }

theorem isSegmented_app : ∀ wanted ∈ ["/app"], IsSegmented wanted := by
  intro wanted hwanted
  obtain rfl := List.mem_singleton.mp hwanted
  exact ⟨[['a', 'p', 'p']], by decide, by simp [Key.IsSegmentChar]⟩

theorem isVariableName_appleWorld :
    ∀ v ∈ appleWorld.environment.entries, EnvironmentStore.IsVariableName v.1 := by
  simp only [appleWorld, List.forall_mem_cons]
  exact ⟨⟨'A', ['P', 'P'], by decide, by decide, by simp [EnvironmentStore.IsNameChar]⟩,
    ⟨'A', ['P', 'P', 'L', 'E'], by decide, by decide, by simp [EnvironmentStore.IsNameChar]⟩,
    by simp⟩

theorem strays_apple : Strays ["/app"] "/apple" := by
  constructor
  · exact ⟨"/app", by simp, 'l', ['e'], by decide⟩
  · intro wanted hwanted
    obtain rfl := List.mem_singleton.mp hwanted
    rw [Key.liesUnder_iff]
    simp

theorem find_apple :
    (EnvironmentStore.find appleWorld.environment ["/app"])["/apple"]? = some "y" := by
  decide +kernel

theorem read_apple : FileStore.read appleWorld "app.yml" =
    .ok (.ofList [("/app", "x"), ("/apple", "y")]) := by
  have hread : (FileStore.read appleWorld "app.yml").toOption =
      some (.ofList [("/app", "x"), ("/apple", "y")]) := by decide +kernel
  cases h : FileStore.read appleWorld "app.yml" with
  | error e => rw [h] at hread; cases hread
  | ok all => rw [h] at hread; rw [Option.some.inj hread]

/-- Asked for `/app`, the document keeps `/apple` to itself, and the environment does not. -/
theorem lookups_answer_app :
    (∃ answer, FileStore.lookup "app.yml" appleWorld ["/app"] = .ok answer ∧
      answer["/app"]? = some "x" ∧ answer["/apple"]? = none) ∧
    ∃ answer, EnvironmentStore.lookup appleWorld ["/app"] = .ok answer ∧
      answer["/app"]? = some "x" ∧ answer["/apple"]? = some "y" := by
  obtain ⟨hdocument, henvironment⟩ := lookups_answer isSegmented_app
  constructor
  · obtain ⟨answer, hlookup, hanswer⟩ := hdocument appleWorld "app.yml" _ read_apple
    refine ⟨answer, hlookup, ?_, ?_⟩
    · exact (hanswer "/app" "x").mpr ⟨by decide +kernel, "/app", by simp, .inl rfl⟩
    · refine Option.eq_none_iff_forall_ne_some.mpr fun text htext => ?_
      obtain ⟨-, wanted, hwanted, hunder⟩ := (hanswer "/apple" text).mp htext
      exact strays_apple.2 wanted hwanted hunder
  · obtain ⟨answer, hlookup, hanswer, -⟩ := henvironment appleWorld isVariableName_appleWorld
    refine ⟨answer, hlookup, ?_, ?_⟩
    · exact (hanswer "/app" "x").mpr ⟨by decide +kernel, .inl ⟨"/app", by simp, .inl rfl⟩⟩
    · exact (hanswer "/apple" "y").mpr ⟨by decide +kernel, .inr strays_apple⟩

/-- An environment can answer more than the pairs under the keys. -/
theorem not_lookup_answers : ¬∀ (world : World) (keys : List String),
    (∀ wanted ∈ keys, IsSegmented wanted) →
    (∀ v ∈ world.environment.entries, EnvironmentStore.IsVariableName v.1) →
      ∃ answer, EnvironmentStore.lookup world keys = .ok answer ∧
        Answers answer (EnvironmentStore.known world.environment) keys := by
  intro hanswers
  obtain ⟨answer, hlookup, hanswer⟩ :=
    hanswers appleWorld ["/app"] isSegmented_app isVariableName_appleWorld
  cases hlookup
  obtain ⟨-, wanted, hwanted, hunder⟩ := (hanswer "/apple" "y").mp find_apple
  exact strays_apple.2 wanted hwanted hunder

end Steward.Backend
