import Steward.Backend.FileStore
import Steward.Proofs.Backend.Pairs
import Steward.Proofs.Key.Segments

/-!
# What is found in a document

A list of keys finds the pairs of a document that are under one of them. So only the set of the keys
counts, a key that is already under another one adds nothing, and two lists together find what each
of them finds.

Results:
* `select_congr`: keys that are under one another in both directions find the same.
* `selects_select`: the laws of a lookup.
* `lookup_by_segments`: the lookups in a file, for every document and all keys.
-/

namespace Steward.Backend.FileStore

variable {all : Pairs} {keys keys' : List String} {key text : String}

/-- An answer to lists of keys out of some pairs. -/
structure Selects (all : Pairs) (answer : List String → Pairs) : Prop where
  /-- The pairs whose key is under a wanted one are found, and no others. -/
  exact : ∀ keys key text, (answer keys)[key]? = some text ↔
    all[key]? = some text ∧ ∃ wanted ∈ keys, Key.under key wanted = true
  /-- Two lists together find what each of them finds. -/
  append : ∀ keys keys', answer (keys ++ keys') = answer keys ∪ answer keys'
  /-- The order of the keys and how often each is wanted do not count. -/
  sameKeys : ∀ keys keys', (∀ wanted, wanted ∈ keys ↔ wanted ∈ keys') → answer keys = answer keys'
  /-- Slashes at the ends of keys do not count. -/
  slashes : ∀ keys keys', List.Forall₂ (fun wanted longer => ∃ n : Nat,
      longer = wanted ++ String.ofList (List.replicate n '/')) keys keys' →
    answer keys' = answer keys
  /-- A key that is under another one adds nothing, wherever it stands. -/
  absorbs : ∀ before after lower, (∃ wanted ∈ before ++ after, Key.under lower wanted = true) →
    answer (before ++ lower :: after) = answer (before ++ after)

theorem select_eq_some_iff : (select all keys)[key]? = some text ↔
    all[key]? = some text ∧ ∃ wanted ∈ keys, Key.under key wanted = true := by
  rw [select, Pairs.getElem?_filter_eq_some_iff, List.any_eq_true]

theorem exists_upper (h : keys ⊆ keys') :
    ∀ wanted ∈ keys, ∃ upper ∈ keys', Key.under wanted upper = true :=
  fun wanted hwanted => ⟨wanted, h hwanted, Key.under_refl wanted⟩

/-- Lists of keys find the same if each key of one is under a key of the other. -/
theorem select_congr (h : ∀ wanted ∈ keys, ∃ upper ∈ keys', Key.under wanted upper = true)
    (h' : ∀ wanted ∈ keys', ∃ upper ∈ keys, Key.under wanted upper = true) :
    select all keys = select all keys' := by
  have hfound {keys keys' : List String} {key : String}
      (h : ∀ wanted ∈ keys, ∃ upper ∈ keys', Key.under wanted upper = true)
      (hkey : ∃ wanted ∈ keys, Key.under key wanted = true) :
      ∃ wanted ∈ keys', Key.under key wanted = true := by
    obtain ⟨wanted, hwanted, hunder⟩ := hkey
    obtain ⟨upper, hupper, habove⟩ := h wanted hwanted
    exact ⟨upper, hupper, Key.under_trans hunder habove⟩
  apply Std.ExtTreeMap.ext_getElem?
  intro key
  apply Option.ext
  intro text
  rw [select_eq_some_iff, select_eq_some_iff]
  exact and_congr_right fun _ => ⟨hfound h, hfound h'⟩

theorem select_append : select all (keys ++ keys') = select all keys ∪ select all keys' := by
  apply Std.ExtTreeMap.ext_getElem?
  intro key
  rw [Std.ExtTreeMap.getElem?_union]
  simp only [select, Std.ExtTreeMap.getElem?_filter', List.any_append]
  cases all[key]? with
  | none => rfl
  | some text =>
    cases keys.any fun wanted => Key.under key wanted <;>
      cases keys'.any fun wanted => Key.under key wanted <;> rfl

theorem selects_select (all : Pairs) : Selects all (select all) where
  exact _ _ _ := select_eq_some_iff
  append _ _ := select_append
  sameKeys keys keys' h :=
    select_congr (exists_upper fun _ => (h _).mp) (exists_upper fun _ => (h _).mpr)
  slashes keys keys' h := by
    apply Std.ExtTreeMap.ext_getElem?
    intro key
    simp only [select, Std.ExtTreeMap.getElem?_filter']
    have hany : (keys'.any fun wanted => Key.under key wanted) =
        keys.any fun wanted => Key.under key wanted := by
      induction h with
      | nil => rfl
      | cons hlonger _ ih =>
        obtain ⟨n, rfl⟩ := hlonger
        rw [List.any_cons, List.any_cons, ih, Key.under_slashes]
    rw [hany]
  absorbs before after lower h := by
    have hmiddle : (before ++ lower :: after).Perm (lower :: (before ++ after)) := List.perm_middle
    apply select_congr
    · intro wanted hwanted
      obtain rfl | hrest := List.mem_cons.mp (hmiddle.mem_iff.mp hwanted)
      · exact h
      · exact exists_upper (List.Subset.refl _) wanted hrest
    · apply exists_upper
      intro wanted hwanted
      exact hmiddle.mem_iff.mpr (List.mem_cons_of_mem _ hwanted)

/-- The document in the file at a path. -/
def IsDocument (world : World) (path : String) (document : Yaml.Value) : Prop :=
  ∃ text, world.files.readText path = .ok text ∧ Yaml.Value.parse? text = some document

theorem read_of_isDocument {world : World} {path : String} {document : Yaml.Value}
    (h : IsDocument world path document) : read world path = .ok (flatten document) := by
  obtain ⟨text, hread, hparse⟩ := h
  simp only [read, hread, hparse]

/-- A key is under another one exactly if its segments begin with those of the other one, of which
    the slashes at the end do not count; being under is transitive. The lookups in a file whose
    document can be read find the pairs of the document that are under a wanted key. -/
theorem lookup_by_segments :
    (∀ key wanted : String, Key.under key wanted = true ↔
      wanted.toList.rdropWhile (· = '/') = [] ∨
        (wanted.toList.rdropWhile (· = '/')).splitOn '/' <+: key.toList.splitOn '/') ∧
    (∀ a b c : String, Key.under a b = true → Key.under b c = true → Key.under a c = true) ∧
    ∀ document : Yaml.Value, ∃ answer : List String → Pairs, Selects (flatten document) answer ∧
      ∀ world path, IsDocument world path document →
        ∀ keys, lookup path world keys = .ok (answer keys) := by
  refine ⟨Key.under_iff_segments, fun _ _ _ => Key.under_trans, ?_⟩
  intro document
  refine ⟨select (flatten document), selects_select _, ?_⟩
  intro world path h keys
  simp only [lookup, read_of_isDocument h]

end Steward.Backend.FileStore
