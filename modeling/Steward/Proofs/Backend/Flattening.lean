import Mathlib.Data.Set.Card
import Steward.Backend.FileStore
import Steward.Proofs.Backend.Pairs
import Steward.Proofs.Yaml.Places

/-!
# Flattening a document

The pairs of a document are its leaves, each under the key that its segments make up. If two leaves
have one key, the one further back in the document counts. Names without slashes and without
repetitions keep all leaves apart.

Results:
* `flatten_eq_some_iff`: the pairs of a document are the last leaves of their keys.
* `slashed_inj`: segments without slashes are read back from their key.
* `size_flatten`: plain names keep all leaves apart.
* `flatten_names_leaves`: what the pairs of a document are.
-/

namespace Steward.Backend.FileStore

open Yaml (Leaf Place Value)

variable {v : Value} {path path' : List String} {key text : String} {place place' : Place}
  {leaf leaf' : Leaf}

/-! ## The last leaf of a key -/

/-- A leaf of a value has a key, and there is no leaf with this key behind it. -/
structure IsLastOf (v : Value) (key : String) (place : Place) (leaf : Leaf) : Prop where
  holds : v.Holds place leaf
  key_eq : keyOf leaf.path = key
  last : ∀ place' leaf', v.Holds place' leaf' → keyOf leaf'.path = key → ¬place.Before place'

/-- The pair that a leaf stands for. -/
def pairOf (leaf : Leaf) : String × String := (keyOf leaf.path, leaf.text)

/-- The pairs of a document are the last leaves of their keys. -/
theorem flatten_eq_some_iff :
    (flatten v)[key]? = some text ↔ ∃ place leaf, IsLastOf v key place leaf ∧ leaf.text = text := by
  obtain ⟨xs, hxs, hsorted, hmem⟩ := Yaml.lists_leaves v
  have hflatten : flatten v = .ofList (xs.map fun x => pairOf x.2) := by
    rw [flatten, ← hxs, List.map_map]
    rfl
  rw [hflatten, Pairs.getElem?_ofList_eq_some_iff]
  constructor
  · rintro ⟨pre, post, heq, hpost⟩
    obtain ⟨xs, ys, rfl, rfl, hys⟩ := List.map_eq_append_iff.mp heq
    obtain ⟨x, ys, rfl, hx, rfl⟩ := List.map_eq_cons_iff.mp hys
    obtain ⟨hkey, htext⟩ := Prod.mk.inj hx
    refine ⟨x.1, x.2, ⟨(hmem x).mp (by simp), hkey, fun place' leaf' h' hkey' hbefore => ?_⟩, htext⟩
    -- another leaf of the key stands in front
    have hother := (hmem (place', leaf')).mpr h'
    rw [List.pairwise_append, List.pairwise_cons] at hsorted
    obtain ⟨-, -, hfront⟩ := hsorted
    rcases List.mem_append.mp hother with hother | hother
    · exact hbefore.asymm (hfront _ hother x List.mem_cons_self)
    · rcases List.mem_cons.mp hother with rfl | hother
      · exact hbefore.asymm hbefore
      · exact hpost (pairOf leaf') (List.mem_map_of_mem hother) hkey'
  · rintro ⟨place, leaf, h, rfl⟩
    obtain ⟨pre, post, rfl⟩ := List.append_of_mem ((hmem (place, leaf)).mpr h.holds)
    refine ⟨_, _, by rw [List.map_append, List.map_cons, pairOf, h.key_eq], fun x hx => ?_⟩
    obtain ⟨y, hy, rfl⟩ := List.mem_map.mp hx
    rw [List.pairwise_append, List.pairwise_cons] at hsorted
    obtain ⟨-, ⟨hbehind, -⟩, -⟩ := hsorted
    exact fun hkey => h.last y.1 y.2 ((hmem y).mp (by simp [hy])) hkey (hbehind y hy)

/-! ## Keys -/

/-- The characters of some segments, each behind a slash. -/
def slashed (path : List String) : List Char := path.flatMap fun segment => '/' :: segment.toList

theorem toList_keyOf (h : path ≠ []) : (keyOf path).toList = slashed path := by
  rw [keyOf, if_neg h, String.toList_join, List.flatMap_map]
  simp [slashed]

/-- A text without slashes is at the beginning of another one as far as its first slash. -/
theorem prefix_of_append_slashed {segment segment' rest : List Char} (h : '/' ∉ segment')
    (heq : segment ++ slashed path = segment' ++ rest) : segment' <+: segment := by
  rcases List.append_eq_append_iff.mp heq with ⟨more, rfl, hmore⟩ | ⟨more, rfl, -⟩
  · cases path with
    | nil => simp_all [slashed]
    | cons first path =>
      cases more with
      | nil => simp
      | cons c more =>
        -- what goes on behind the segment begins with a slash
        obtain ⟨rfl, -⟩ := List.cons.inj hmore
        simp at h
  · exact List.prefix_append _ _

/-- Segments without slashes are read back from their key. -/
theorem slashed_inj (h : ∀ s ∈ path, '/' ∉ s.toList) (h' : ∀ s ∈ path', '/' ∉ s.toList)
    (heq : slashed path = slashed path') : path = path' := by
  induction path generalizing path' with
  | nil =>
    cases path' with
    | nil => rfl
    | cons => simp [slashed] at heq
  | cons first path ih =>
    cases path' with
    | nil => simp [slashed] at heq
    | cons first' path' =>
      obtain ⟨hfirst, hpath⟩ := List.forall_mem_cons.mp h
      obtain ⟨hfirst', hpath'⟩ := List.forall_mem_cons.mp h'
      have hrest : first.toList ++ slashed path = first'.toList ++ slashed path' := by
        simpa [slashed] using heq
      have hle : first'.toList <+: first.toList := prefix_of_append_slashed hfirst' hrest
      have hge : first.toList <+: first'.toList := prefix_of_append_slashed hfirst hrest.symm
      have hlist : first.toList = first'.toList :=
        hge.eq_of_length (Nat.le_antisymm hge.length_le hle.length_le)
      obtain rfl : first = first' := String.toList_injective hlist
      rw [ih hpath hpath' (List.append_cancel_left hrest)]

/-- No two leaves of a plain value have the same key. -/
theorem eq_of_keyOf_eq (hv : v.IsPlain) (h : v.Holds place leaf) (h' : v.Holds place' leaf')
    (hkey : keyOf leaf.path = keyOf leaf'.path) : place = place' ∧ leaf = leaf' := by
  refine h.eq_of_path_eq hv h' ?_
  -- the root has the key of an empty segment, but then it is the only leaf
  by_cases hnil : leaf.path = []
  · rw [hnil, h.path_eq_nil hnil h']
  · have hnil' : leaf'.path ≠ [] := fun hnil' => hnil (h'.path_eq_nil hnil' h)
    refine slashed_inj (h.slash_notMem hv) (h'.slash_notMem hv) ?_
    rw [← toList_keyOf hnil, ← toList_keyOf hnil', hkey]

/-! ## The pairs of a document -/

/-- There are as many places with a scalar as leaves. -/
theorem ncard_places (v : Value) :
    {place | ∃ leaf, v.Holds place leaf}.ncard = v.leaves.length := by
  obtain ⟨xs, hxs, hsorted, hmem⟩ := Yaml.lists_leaves v
  have hnodup : (xs.map Prod.fst).Nodup := by
    refine List.pairwise_map.mpr (hsorted.imp fun hbefore heq => ?_)
    rw [heq] at hbefore
    exact hbefore.asymm hbefore
  have hset : {place | ∃ leaf, v.Holds place leaf} = ↑(xs.map Prod.fst).toFinset := by
    ext place
    simp [← hmem (place, _)]
  rw [hset, Set.ncard_coe_finset, List.toFinset_card_of_nodup hnodup, ← hxs, List.length_map,
    List.length_map]

/-- If the names in a document are plain, there are as many pairs as leaves. -/
theorem size_flatten (hv : v.IsPlain) : (flatten v).size = v.leaves.length := by
  obtain ⟨xs, hxs, hsorted, hmem⟩ := Yaml.lists_leaves v
  have hdistinct : (v.leaves.map pairOf).Pairwise fun a b => ¬compare a.1 b.1 = .eq := by
    rw [← hxs, List.map_map, List.pairwise_map]
    refine hsorted.imp_of_mem fun hx hy hbefore hkey => ?_
    have heq := eq_of_keyOf_eq hv ((hmem _).mp hx) ((hmem _).mp hy) (Std.compare_eq_iff_eq.mp hkey)
    rw [heq.1] at hbefore
    exact hbefore.asymm hbefore
  have hsize := Std.ExtTreeMap.size_ofList hdistinct
  rwa [List.length_map] at hsize

/-- What the pairs of a document are: a key has a text exactly if the last scalar of the document
    with this key has it. If the names in the document are plain, no two scalars have the same key,
    and there are as many pairs as scalars. -/
theorem flatten_names_leaves (v : Value) :
    (∀ key text, (flatten v)[key]? = some text ↔
      ∃ place leaf, IsLastOf v key place leaf ∧ leaf.text = text) ∧
    (v.IsPlain →
      (∀ place leaf, v.Holds place leaf → (flatten v)[keyOf leaf.path]? = some leaf.text) ∧
      (∀ place leaf place' leaf', v.Holds place leaf → v.Holds place' leaf' →
        keyOf leaf.path = keyOf leaf'.path → place = place') ∧
      (flatten v).size = {place | ∃ leaf, v.Holds place leaf}.ncard) := by
  refine ⟨fun key text => flatten_eq_some_iff, fun hv => ⟨fun place leaf h => ?_, ?_, ?_⟩⟩
  · refine flatten_eq_some_iff.mpr ⟨place, leaf, ⟨h, rfl, fun place' leaf' h' hkey => ?_⟩, rfl⟩
    obtain ⟨rfl, -⟩ := eq_of_keyOf_eq hv h' h hkey
    exact fun hbefore => hbefore.asymm hbefore
  · exact fun place leaf place' leaf' h h' hkey => (eq_of_keyOf_eq hv h h' hkey).1
  · rw [size_flatten hv, ncard_places]

/-- A document with a tagged list of ports. -/
def portsDocument : Value :=
  .mapping [(.string "app", .tagged "!ports" (.sequence [.int 80, .int 443]))]

theorem isPlain_portsDocument : portsDocument.IsPlain := by
  -- it has no other mapping in it
  have hmapping : ∀ entries, portsDocument.Reaches (.mapping entries) →
      Value.mapping entries = portsDocument := by
    intro entries h
    cases h with
    | self => rfl
    | entry hv _ h =>
      obtain ⟨rfl, rfl⟩ := Prod.mk.inj (List.mem_singleton.mp hv)
      cases h with
      | tagged h =>
        cases h with
        | item hv h =>
          rcases List.mem_pair.mp hv with rfl | rfl <;> cases h
  constructor
  · intro entries h
    cases hmapping entries h
    intro e he text htext
    obtain rfl := List.mem_singleton.mp he
    cases htext
    decide
  · intro entries h
    cases hmapping entries h
    exact List.nodup_singleton _

/-- Both ports are found under their positions. -/
theorem flatten_names_ports :
    portsDocument.IsPlain ∧ (flatten portsDocument)["/app/1"]? = some "443" := by
  refine ⟨isPlain_portsDocument, ?_⟩
  obtain ⟨hleaves, -⟩ := (flatten_names_leaves portsDocument).2 isPlain_portsDocument
  exact hleaves _ _ (.entry (i := 0) rfl rfl (.tagged (.item (i := 1) rfl (.scalar rfl))))

end Steward.Backend.FileStore
