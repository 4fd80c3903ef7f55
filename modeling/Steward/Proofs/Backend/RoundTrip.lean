import Steward.Proofs.Backend.Answering

/-!
# Variables and their keys

A name of upper-case letters, digits and underscores that does not begin with an underscore is read
back from its key. So variables with such names have keys of their own: a lookup finds every variable
that is wanted, each under its key, and the key alone finds it again. In any environment the last of
the wanted variables with a key counts.

Results:
* `variableName_keyOf`, `keyOf_inj`: a plain name is read back from its key.
* `find_eq_some_iff_last`: what a lookup finds in any environment.
* `IsPlain.find_eq_some_iff`, `IsPlain.size_find`: what it finds if all names are plain.
* `lookup_lossless`: the lookups in an environment.
-/

namespace Steward.Backend.EnvironmentStore

open Key (IsSegmentChar)

variable {c : Char} {name name' : String} {env : Environment} {keys : List String}
  {key text : String}

/-! ## Names and their keys -/

/-- A name of upper-case letters, digits and underscores that does not begin with an underscore. -/
structure IsPlainName (name : String) : Prop where
  isNameChar : ∀ c ∈ name.toList, IsNameChar c
  head?_ne : name.toList.head? ≠ some '_'

theorem keyChar_cases (h : IsNameChar c) : keyChar c = '/' ∨ IsSegmentChar (keyChar c) :=
  Text.forall_ascii (P := fun c => IsNameChar c → keyChar c = '/' ∨ IsSegmentChar (keyChar c))
    (by decide) c (toNat_lt_of_isNameChar h) h

theorem keyChar_ne_slash (h : IsNameChar c) (hc : c ≠ '_') : keyChar c ≠ '/' := by
  intro hslash
  have hback := nameChar_keyChar h
  rw [hslash] at hback
  exact hc hback.symm

/-- A plain name is read back from its key. -/
theorem variableName_keyOf (h : IsPlainName name) :
    variableName (keyOf name.toList) = name.toList := by
  rw [keyOf_eq h.isNameChar]
  cases hname : name.toList with
  | nil => rfl
  | cons c rest =>
    have hchars : ∀ d ∈ c :: rest, IsNameChar d := hname ▸ h.isNameChar
    have hc : c ≠ '_' := by
      rintro rfl
      exact h.head?_ne (by rw [hname, List.head?_cons])
    have hkey : ∀ d ∈ (c :: rest).map keyChar, d = '/' ∨ IsSegmentChar d :=
      List.forall_mem_map.mpr fun d hd => keyChar_cases (hchars d hd)
    rw [List.map_cons, variableName_eq (keyChar_ne_slash (hchars c List.mem_cons_self) hc) hkey]
    exact map_nameChar_map_keyChar hchars

theorem keyOf_inj (h : IsPlainName name) (h' : IsPlainName name')
    (hkey : keyOf name.toList = keyOf name'.toList) : name = name' := by
  apply String.toList_injective
  rw [← variableName_keyOf h, hkey, variableName_keyOf h']

/-! ## Any environment -/

/-- A variable is wanted if its name begins with the variable name of some key. -/
def IsWanted (keys : List String) (name : String) : Prop :=
  ∃ wanted ∈ keys, variableName wanted.toList <+: name.toList

theorem any_finds_iff : (keys.any fun wanted => finds wanted name) = true ↔ IsWanted keys name := by
  simp only [List.any_eq_true, finds, List.isPrefixOf_iff_prefix, IsWanted]

instance (keys : List String) (name : String) : Decidable (IsWanted keys name) :=
  decidable_of_iff _ any_finds_iff

theorem find_eq (env : Environment) (keys : List String) :
    find env keys = .ofList ((env.entries.filter fun v => IsWanted keys v.1).map pairOf) := by
  have hwanted : (fun v : String × String => keys.any fun wanted => finds wanted v.1) =
      fun v => decide (IsWanted keys v.1) := by
    funext v
    rw [Bool.eq_iff_iff, any_finds_iff, decide_eq_true_iff]
  rw [find, hwanted]
  rfl

/-- A wanted variable has a key and a value, and there is no wanted variable with this key behind
    it. -/
def IsLastWanted (env : Environment) (keys : List String) (key text : String) : Prop :=
  ∃ pre name post, env.entries = pre ++ (name, text) :: post ∧ IsWanted keys name ∧
    String.ofList (keyOf name.toList) = key ∧
    ∀ v ∈ post, IsWanted keys v.1 → String.ofList (keyOf v.1.toList) ≠ key

/-- The last of the wanted variables with a key counts. -/
theorem find_eq_some_iff_last :
    (find env keys)[key]? = some text ↔ IsLastWanted env keys key text := by
  rw [find_eq, Pairs.getElem?_ofList_eq_some_iff]
  constructor
  · rintro ⟨pre, post, heq, hpost⟩
    obtain ⟨front, back, hsplit, -, hback⟩ := List.map_eq_append_iff.mp heq
    obtain ⟨v, back, rfl, hv, rfl⟩ := List.map_eq_cons_iff.mp hback
    obtain ⟨front', back', hentries, -, hrest⟩ := List.filter_eq_append_iff.mp hsplit
    obtain ⟨skipped, later, rfl, -, hwanted, rfl⟩ := List.filter_eq_cons_iff.mp hrest
    obtain ⟨hkey, rfl⟩ := Prod.mk.inj hv
    refine ⟨front' ++ skipped, v.1, later, by rw [hentries, List.append_assoc],
      of_decide_eq_true hwanted, hkey, fun w hw hwwanted => ?_⟩
    refine hpost (pairOf w) (List.mem_map_of_mem (List.mem_filter.mpr ⟨hw, ?_⟩))
    exact decide_eq_true hwwanted
  · rintro ⟨pre, name, post, hentries, hwanted, rfl, hpost⟩
    refine ⟨(pre.filter fun v => IsWanted keys v.1).map pairOf,
      (post.filter fun v => IsWanted keys v.1).map pairOf, ?_, fun x hx => ?_⟩
    · rw [hentries, List.filter_append, List.filter_cons, if_pos (decide_eq_true hwanted),
        List.map_append, List.map_cons, pairOf]
    · obtain ⟨w, hw, rfl⟩ := List.mem_map.mp hx
      obtain ⟨hw, hwwanted⟩ := List.mem_filter.mp hw
      exact hpost w hw (of_decide_eq_true hwwanted)

/-! ## Plain environments -/

/-- An environment whose names are plain and distinct. -/
structure IsPlain (env : Environment) : Prop where
  isPlainName : ∀ v ∈ env.entries, IsPlainName v.1
  nodup : (env.entries.map Prod.fst).Nodup

/-- A variable of a plain environment is the only one with its key. -/
theorem IsPlain.notMem_of_split (h : IsPlain env) {pre post : List (String × String)}
    (hentries : env.entries = pre ++ (name, text) :: post) :
    ∀ v ∈ post, String.ofList (keyOf v.1.toList) ≠ String.ofList (keyOf name.toList) := by
  intro v hv hkey
  have hvariable : IsPlainName name := h.isPlainName (name, text) (by simp [hentries])
  have hother : IsPlainName v.1 := h.isPlainName v (by simp [hentries, hv])
  have hname : v.1 = name := keyOf_inj hother hvariable (String.ofList_injective hkey)
  have hnodup := h.nodup
  rw [hentries, List.map_append, List.map_cons] at hnodup
  have hmem : v.1 ∈ post.map Prod.fst := List.mem_map_of_mem hv
  rw [hname] at hmem
  exact (List.nodup_cons.mp (List.nodup_append.mp hnodup).2.1).1 hmem

/-- The wanted variables of a plain environment are found, each under its key. -/
theorem IsPlain.find_eq_some_iff (h : IsPlain env) : (find env keys)[key]? = some text ↔
    ∃ name, (name, text) ∈ env.entries ∧ IsWanted keys name ∧
      String.ofList (keyOf name.toList) = key := by
  rw [find_eq_some_iff_last]
  constructor
  · rintro ⟨pre, name, post, hentries, hwanted, hkey, -⟩
    exact ⟨name, by simp [hentries], hwanted, hkey⟩
  · rintro ⟨name, hmem, hwanted, rfl⟩
    obtain ⟨pre, post, hentries⟩ := List.append_of_mem hmem
    exact ⟨pre, name, post, hentries, hwanted, rfl, fun v hv _ => h.notMem_of_split hentries v hv⟩

/-- As many pairs are found as variables of a plain environment are wanted. -/
theorem IsPlain.size_find (h : IsPlain env) (keys : List String) :
    (find env keys).size = env.entries.countP fun v => IsWanted keys v.1 := by
  have hdistinct : ((env.entries.filter fun v => IsWanted keys v.1).map pairOf).Pairwise
      fun a b => ¬compare a.1 b.1 = .eq := by
    refine List.pairwise_map.mpr (List.Pairwise.sublist List.filter_sublist ?_)
    refine (List.pairwise_map.mp h.nodup).imp_of_mem fun {v w} hv hw hne hkey => hne ?_
    exact keyOf_inj (h.isPlainName v hv) (h.isPlainName w hw)
      (String.ofList_injective (Std.compare_eq_iff_eq.mp hkey))
  rw [find_eq, Std.ExtTreeMap.size_ofList hdistinct, List.length_map, List.countP_eq_length_filter]

/-- What is found in a plain environment is found again by its key alone. -/
theorem IsPlain.find_again (h : IsPlain env) (hkey : (find env keys)[key]? = some text) :
    (find env [key])[key]? = some text := by
  obtain ⟨name, hmem, -, rfl⟩ := h.find_eq_some_iff.mp hkey
  have hname : variableName (keyOf name.toList) = name.toList :=
    variableName_keyOf (h.isPlainName _ hmem)
  have hwanted : IsWanted [String.ofList (keyOf name.toList)] name := by
    refine ⟨_, List.mem_singleton_self _, ?_⟩
    simp only [String.toList_ofList, hname, List.prefix_rfl]
  exact h.find_eq_some_iff.mpr ⟨name, hmem, hwanted, rfl⟩

/-! ## Lookups -/

/-- A plain name is read back from its key, so plain names have distinct keys. A lookup finds for each
    key the last wanted variable that has it. In a plain environment it finds the wanted variables,
    each under its key, and each of these keys alone finds the same value again. -/
theorem lookup_lossless :
    (∀ name, IsPlainName name → variableName (keyOf name.toList) = name.toList) ∧
    (∀ name name', IsPlainName name → IsPlainName name' →
      keyOf name.toList = keyOf name'.toList → name = name') ∧
    ∀ (world : World) (keys : List String), ∃ found, lookup world keys = .ok found ∧
      (∀ key text, found[key]? = some text ↔ IsLastWanted world.environment keys key text) ∧
      (IsPlain world.environment →
        (∀ key text, found[key]? = some text ↔
          ∃ name, (name, text) ∈ world.environment.entries ∧ IsWanted keys name ∧
            String.ofList (keyOf name.toList) = key) ∧
        (found.size = world.environment.entries.countP fun v => IsWanted keys v.1) ∧
        ∀ key text, found[key]? = some text →
          ∃ again, lookup world [key] = .ok again ∧ again[key]? = some text) := by
  refine ⟨fun _ => variableName_keyOf, fun _ _ => keyOf_inj, fun world keys => ?_⟩
  refine ⟨find world.environment keys, rfl, fun _ _ => find_eq_some_iff_last, fun h => ?_⟩
  refine ⟨fun _ _ => h.find_eq_some_iff, h.size_find keys, fun key text hkey => ?_⟩
  exact ⟨find world.environment [key], rfl, h.find_again hkey⟩

/-- A world whose variables have underscores in a row and at the end of a name. -/
def underscoreWorld : World where
  environment := ⟨[("A__B_", "x"), ("A_B", "y"), ("PORT", "z")]⟩

theorem isPlain_underscoreWorld : IsPlain underscoreWorld.environment where
  isPlainName := by
    simp only [underscoreWorld, List.forall_mem_cons]
    exact ⟨⟨by simp [IsNameChar], by decide⟩, ⟨by simp [IsNameChar], by decide⟩,
      ⟨by simp [IsNameChar], by decide⟩, by simp⟩
  nodup := by decide

/-- Each underscore is a slash of the key, which finds the same value again. -/
theorem lookup_lossless_underscores :
    IsPlainName "A__B_" ∧ IsPlainName "A_B" ∧ IsPlain underscoreWorld.environment ∧
      variableName (keyOf "A__B_".toList) = "A__B_".toList ∧
      keyOf "A__B_".toList ≠ keyOf "A_B".toList ∧
      ∃ again, lookup underscoreWorld ["/a//b/"] = .ok again ∧ again["/a//b/"]? = some "x" := by
  obtain ⟨hback, hinj, hlookup⟩ := lookup_lossless
  have hplain := isPlain_underscoreWorld
  have hname : IsPlainName "A__B_" := hplain.isPlainName ("A__B_", "x") (by decide)
  have hname' : IsPlainName "A_B" := hplain.isPlainName ("A_B", "y") (by decide)
  obtain ⟨found, -, -, hfound⟩ := hlookup underscoreWorld ["a"]
  obtain ⟨hexact, -, hagain⟩ := hfound hplain
  have hkey : found["/a//b/"]? = some "x" := by
    refine (hexact "/a//b/" "x").mpr ⟨"A__B_", by decide, ⟨"a", by simp, ?_⟩, ?_⟩
    · decide
    · decide
  refine ⟨hname, hname', hplain, hback _ hname, fun h => ?_, hagain "/a//b/" "x" hkey⟩
  exact absurd (hinj _ _ hname hname' h) (by decide)

end Steward.Backend.EnvironmentStore
