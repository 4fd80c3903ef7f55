import Steward.Yaml.Leaf

/-!
# Places of leaves

A place in a document is written as the numbers of the items and entries that lead to it, from the
outside in. What stands in front in the document has the lesser place, in lexicographic order.
`Holds` says by rules which scalars a value holds, each at its place and under its segments.

Results:
* `lists_leaves`: the leaves of a value are what it holds, in the order of the places.
* `Holds.eq_of_path_eq`: in a value that names its entries plainly, no two leaves have the same
  segments.
-/

namespace Steward.Yaml

/-! ## Induction over values -/

/-- What holds of scalars, and of a value as soon as it holds of what stands under its tag, in its
    items or behind its keys, holds of all values. -/
@[elab_as_elim]
theorem Value.induction_on_parts {P : Value → Prop}
    (scalar : ∀ v text, v.scalarText? = some text → P v)
    (tagged : ∀ tag v, P v → P (.tagged tag v))
    (sequence : ∀ items : List Value, (∀ v ∈ items, P v) → P (.sequence items))
    (mapping : ∀ entries : List (Value × Value), (∀ e ∈ entries, P e.2) → P (.mapping entries))
    (v : Value) : P v := by
  match v with
  | .null | .bool _ | .int _ | .float _ | .string _ => exact scalar _ _ rfl
  | .tagged tag u => exact tagged tag u (induction_on_parts scalar tagged sequence mapping u)
  | .sequence items =>
    exact sequence items fun u _ => induction_on_parts scalar tagged sequence mapping u
  | .mapping entries =>
    exact mapping entries fun e _ => induction_on_parts scalar tagged sequence mapping e.2
termination_by sizeOf v
decreasing_by
  · rw [Value.tagged.sizeOf_spec]
    omega
  · have hlt := List.sizeOf_lt_of_mem ‹u ∈ items›
    rw [Value.sequence.sizeOf_spec]
    omega
  · have hlt := List.sizeOf_lt_of_mem ‹e ∈ entries›
    have hsnd : sizeOf e.2 < sizeOf e := by
      rw [Prod.mk.sizeOf_spec]
      omega
    rw [Value.mapping.sizeOf_spec]
    omega

/-! ## Places -/

/-- The numbers of the items and entries that lead to a part of a value, from the outside in. A tag
    does not count. -/
abbrev Place := List Nat

/-- A place stands in front of another one in the document. -/
def Place.Before (p q : Place) : Prop := List.Lex (· < ·) p q

theorem Place.Before.asymm {p q : Place} (h : p.Before q) : ¬q.Before p :=
  List.lex_asymm (fun hlt => Nat.lt_asymm hlt) h

/-- The scalars that a value holds, each at its place. -/
inductive Value.Holds : Value → Place → Leaf → Prop where
  /-- A scalar holds its own text. -/
  | scalar {v : Value} {text : String} (h : v.scalarText? = some text) : Holds v [] ⟨[], text⟩
  /-- A tag makes no difference. -/
  | tagged {tag : String} {v : Value} {place : Place} {leaf : Leaf} (h : Holds v place leaf) :
      Holds (.tagged tag v) place leaf
  /-- What an item of a sequence holds, under the position of the item. -/
  | item {items : List Value} {i : Nat} {v : Value} {place : Place} {leaf : Leaf}
      (hi : items[i]? = some v) (h : Holds v place leaf) :
      Holds (.sequence items) (i :: place) (leaf.under (String.ofList (Decimal.natText i)))
  /-- What the value of an entry holds, under the text of the key. A key without a text has nothing
      under it. -/
  | entry {entries : List (Value × Value)} {i : Nat} {k v : Value} {segment : String}
      {place : Place} {leaf : Leaf} (hi : entries[i]? = some (k, v))
      (hk : k.scalarText? = some segment) (h : Holds v place leaf) :
      Holds (.mapping entries) (i :: place) (leaf.under segment)

/-! ## Leaves in order -/

/-- A list of leaves is what there is at some places, in the order of the places. -/
def Lists (holds : Place → Leaf → Prop) (ls : List Leaf) : Prop :=
  ∃ xs : List (Place × Leaf), xs.map Prod.snd = ls ∧
    (xs.Pairwise fun x y => x.1.Before y.1) ∧ ∀ x, x ∈ xs ↔ holds x.1 x.2

variable {holds holds' : Place → Leaf → Prop} {ls ls' : List Leaf}

theorem lists_nil (h : ∀ place leaf, ¬holds place leaf) : Lists holds [] :=
  ⟨[], rfl, List.Pairwise.nil, fun x => by simp [h]⟩

theorem Lists.congr (h : Lists holds ls)
    (hiff : ∀ place leaf, holds place leaf ↔ holds' place leaf) : Lists holds' ls := by
  obtain ⟨xs, hmap, hsorted, hmem⟩ := h
  exact ⟨xs, hmap, hsorted, fun x => (hmem x).trans (hiff x.1 x.2)⟩

theorem Lists.append (h : Lists holds ls) (h' : Lists holds' ls')
    (hbefore : ∀ p l p' l', holds p l → holds' p' l' → p.Before p') :
    Lists (fun p l => holds p l ∨ holds' p l) (ls ++ ls') := by
  obtain ⟨xs, rfl, hsorted, hmem⟩ := h
  obtain ⟨ys, rfl, hsorted', hmem'⟩ := h'
  refine ⟨xs ++ ys, List.map_append, List.pairwise_append.mpr ⟨hsorted, hsorted', ?_⟩, ?_⟩
  · intro x hx y hy
    exact hbefore _ _ _ _ ((hmem x).mp hx) ((hmem' y).mp hy)
  · intro x
    rw [List.mem_append, hmem, hmem']

/-- Leaves one level higher, behind the same number. -/
theorem Lists.under (h : Lists holds ls) (i : Nat) (segment : String) :
    Lists (fun p l => ∃ p' l', p = i :: p' ∧ l = Leaf.under segment l' ∧ holds p' l')
      (ls.map (Leaf.under segment)) := by
  obtain ⟨xs, rfl, hsorted, hmem⟩ := h
  refine ⟨xs.map fun x => (i :: x.1, x.2.under segment), ?_, ?_, ?_⟩
  · rw [List.map_map, List.map_map]
    rfl
  · rw [List.pairwise_map]
    exact hsorted.imp fun hxy => List.Lex.cons hxy
  · rintro ⟨p, l⟩
    rw [List.mem_map]
    constructor
    · rintro ⟨x, hx, heq⟩
      cases heq
      exact ⟨x.1, x.2, rfl, rfl, (hmem x).mp hx⟩
    · rintro ⟨p', l', rfl, rfl, hl⟩
      exact ⟨(p', l'), (hmem _).mpr hl, rfl⟩

/-! ## The parts of a value, each with its segment -/

/-- What some parts of a value hold, each under its segment, numbered from `i` on. A part without a
    segment has nothing under it. -/
def PartsHold (i : Nat) (parts : List (Option String × Value)) (place : Place) (leaf : Leaf) :
    Prop :=
  ∃ j segment v p l, parts[j]? = some (some segment, v) ∧ place = (i + j) :: p ∧
    leaf = Leaf.under segment l ∧ v.Holds p l

/-- The leaves of some parts of a value. -/
def partLeaves (parts : List (Option String × Value)) : List Leaf :=
  parts.flatMap fun part => part.1.toList.flatMap fun segment => part.2.leaves.map (.under segment)

theorem partsHold_cons (i : Nat) (part : Option String × Value)
    (parts : List (Option String × Value)) (place : Place) (leaf : Leaf) :
    PartsHold i (part :: parts) place leaf ↔
      (∃ segment, part.1 = some segment ∧ ∃ p l, place = i :: p ∧ leaf = Leaf.under segment l ∧
        part.2.Holds p l) ∨ PartsHold (i + 1) parts place leaf := by
  constructor
  · rintro ⟨j, segment, v, p, l, hj, rfl, rfl, hl⟩
    cases j with
    | zero =>
      rw [List.getElem?_cons_zero, Option.some.injEq] at hj
      subst hj
      exact .inl ⟨segment, rfl, p, l, rfl, rfl, hl⟩
    | succ j =>
      rw [List.getElem?_cons_succ] at hj
      exact .inr ⟨j, segment, v, p, l, hj, by rw [Nat.add_right_comm, Nat.add_assoc], rfl, hl⟩
  · rintro (⟨segment, hpart, p, l, rfl, rfl, hl⟩ | ⟨j, segment, v, p, l, hj, rfl, rfl, hl⟩)
    · exact ⟨0, segment, part.2, p, l, by rw [← hpart]; rfl, rfl, rfl, hl⟩
    · exact ⟨j + 1, segment, v, p, l, hj, by rw [Nat.add_right_comm, Nat.add_assoc], rfl, hl⟩

/-- The leaves of some parts are what they hold, if that is so for each of them. -/
theorem lists_partLeaves {parts : List (Option String × Value)}
    (h : ∀ part ∈ parts, Lists part.2.Holds part.2.leaves) (i : Nat) :
    Lists (PartsHold i parts) (partLeaves parts) := by
  induction parts generalizing i with
  | nil => exact lists_nil fun place leaf => by simp [PartsHold]
  | cons part parts ih =>
    have hrest := ih (fun p hp => h p (List.mem_cons_of_mem _ hp)) (i + 1)
    have hfirst : Lists (fun p l => ∃ segment, part.1 = some segment ∧ ∃ p' l', p = i :: p' ∧
        l = Leaf.under segment l' ∧ part.2.Holds p' l')
        (part.1.toList.flatMap fun segment => part.2.leaves.map (.under segment)) := by
      cases hsegment : part.1 with
      | none => exact lists_nil fun place leaf => by simp
      | some segment =>
        have hunder := (h part List.mem_cons_self).under i segment
        simpa using hunder
    have hboth := hfirst.append hrest ?_
    · exact hboth.congr fun p l => (partsHold_cons i part parts p l).symm
    · -- the first part is numbered before the others
      rintro p l p' l' ⟨segment, -, q, m, rfl, -, -⟩ ⟨j, -, -, q', -, -, rfl, -, -⟩
      exact List.Lex.rel (by omega)

/-- The items of a sequence, each with its position. -/
def itemParts (i : Nat) (items : List Value) : List (Option String × Value) :=
  (items.zipIdx i).map fun x => (some (String.ofList (Decimal.natText x.2)), x.1)

/-- The values of a mapping, each with the text of its key. -/
def entryParts (entries : List (Value × Value)) : List (Option String × Value) :=
  entries.map fun e => (e.1.scalarText?, e.2)

theorem itemLeaves_eq (i : Nat) (items : List Value) :
    itemLeaves i items = partLeaves (itemParts i items) := by
  induction items generalizing i with
  | nil => rfl
  | cons v items ih => simp [itemLeaves, itemParts, partLeaves, ih]

theorem entryLeaves_eq (entries : List (Value × Value)) :
    entryLeaves entries = partLeaves (entryParts entries) := by
  induction entries with
  | nil => rfl
  | cons e entries ih =>
    obtain ⟨k, v⟩ := e
    rw [entryLeaves, ih]
    cases h : k.scalarText? <;> simp [entryParts, partLeaves, h]

theorem holds_scalar_iff {v : Value} {text : String} {place : Place} {leaf : Leaf}
    (h : v.scalarText? = some text) : v.Holds place leaf ↔ place = [] ∧ leaf = ⟨[], text⟩ := by
  constructor
  · intro hl
    cases hl with
    | scalar h' => exact ⟨rfl, by rw [Option.some.inj (h.symm.trans h')]⟩
    | tagged | item | entry => simp [Value.scalarText?] at h
  · rintro ⟨rfl, rfl⟩
    exact .scalar h

theorem holds_tagged_iff {tag : String} {v : Value} {place : Place} {leaf : Leaf} :
    (Value.tagged tag v).Holds place leaf ↔ v.Holds place leaf := by
  constructor
  · intro hl
    cases hl with
    | scalar h => simp [Value.scalarText?] at h
    | tagged h => exact h
  · exact .tagged

theorem holds_sequence_iff {items : List Value} {place : Place} {leaf : Leaf} :
    PartsHold 0 (itemParts 0 items) place leaf ↔ (Value.sequence items).Holds place leaf := by
  constructor
  · rintro ⟨j, segment, v, p, l, hj, rfl, rfl, hl⟩
    simp only [itemParts, List.getElem?_map, List.getElem?_zipIdx, Option.map_eq_some_iff] at hj
    obtain ⟨x, ⟨u, hu, rfl⟩, heq⟩ := hj
    cases heq
    rw [Nat.zero_add]
    exact .item hu hl
  · rintro (hs | _ | ⟨hi, h⟩)
    · simp [Value.scalarText?] at hs
    · rename_i i v p l
      refine ⟨i, _, v, p, l, ?_, by rw [Nat.zero_add], rfl, h⟩
      simp [itemParts, hi]

theorem holds_mapping_iff {entries : List (Value × Value)} {place : Place} {leaf : Leaf} :
    PartsHold 0 (entryParts entries) place leaf ↔ (Value.mapping entries).Holds place leaf := by
  constructor
  · rintro ⟨j, segment, v, p, l, hj, rfl, rfl, hl⟩
    simp only [entryParts, List.getElem?_map, Option.map_eq_some_iff] at hj
    obtain ⟨⟨k, u⟩, he, heq⟩ := hj
    obtain ⟨hk, rfl⟩ := Prod.mk.inj heq
    rw [Nat.zero_add]
    exact .entry he hk hl
  · rintro (hs | _ | _ | ⟨hi, hk, h⟩)
    · simp [Value.scalarText?] at hs
    · rename_i i k v segment p l
      refine ⟨i, segment, v, p, l, ?_, by rw [Nat.zero_add], rfl, h⟩
      simp [entryParts, hi, hk]

/-- The leaves of a value are what it holds, in the order of the places. -/
theorem lists_leaves (v : Value) : Lists v.Holds v.leaves := by
  induction v using Value.induction_on_parts with
  | scalar v text h =>
    have hleaves : v.leaves = [⟨[], text⟩] := by
      cases v <;> simp_all [Value.leaves, Value.scalarText?]
    refine ⟨[([], ⟨[], text⟩)], hleaves.symm, List.pairwise_singleton _ _, fun x => ?_⟩
    rw [holds_scalar_iff h, List.mem_singleton, Prod.ext_iff]
  | tagged tag v ih =>
    rw [Value.leaves]
    exact ih.congr fun _ _ => holds_tagged_iff.symm
  | sequence items ih =>
    have hparts : ∀ part ∈ itemParts 0 items, Lists part.2.Holds part.2.leaves := by
      intro part hpart
      obtain ⟨x, hx, rfl⟩ := List.mem_map.mp hpart
      exact ih x.1 (List.fst_mem_of_mem_zipIdx hx)
    rw [Value.leaves, itemLeaves_eq]
    exact (lists_partLeaves hparts 0).congr fun _ _ => holds_sequence_iff
  | mapping entries ih =>
    have hparts : ∀ part ∈ entryParts entries, Lists part.2.Holds part.2.leaves := by
      intro part hpart
      obtain ⟨e, he, rfl⟩ := List.mem_map.mp hpart
      exact ih e he
    rw [Value.leaves, entryLeaves_eq]
    exact (lists_partLeaves hparts 0).congr fun _ _ => holds_mapping_iff

/-! ## Plain names -/

namespace Value

/-- The parts of a value that have leaves to offer: what stands under its tag, in its items, or
    behind a key with a text, at any depth. -/
inductive Reaches : Value → Value → Prop where
  | self (v : Value) : Reaches v v
  | tagged {tag : String} {v u : Value} (h : Reaches v u) : Reaches (.tagged tag v) u
  | item {items : List Value} {v u : Value} (hv : v ∈ items) (h : Reaches v u) :
      Reaches (.sequence items) u
  | entry {entries : List (Value × Value)} {k v u : Value} {segment : String}
      (hv : (k, v) ∈ entries) (hk : k.scalarText? = some segment) (h : Reaches v u) :
      Reaches (.mapping entries) u

/-- In no mapping has a key a slash in its text, nor have two keys the same text. -/
structure IsPlain (v : Value) : Prop where
  slash_notMem : ∀ entries, v.Reaches (.mapping entries) → ∀ e ∈ entries, ∀ text,
    e.1.scalarText? = some text → '/' ∉ text.toList
  nodup : ∀ entries, v.Reaches (.mapping entries) →
    (entries.filterMap fun e => e.1.scalarText?).Nodup

variable {v u : Value} {place place' : Place} {leaf leaf' : Leaf}

/-- A part of a plain value is plain. -/
theorem IsPlain.part (h : v.IsPlain) (hpart : ∀ w, u.Reaches w → v.Reaches w) : u.IsPlain where
  slash_notMem entries hentries := h.slash_notMem entries (hpart _ hentries)
  nodup entries hentries := h.nodup entries (hpart _ hentries)

/-- Two entries whose keys have one text are the same entry. -/
theorem IsPlain.index_eq {entries : List (Value × Value)} (h : (Value.mapping entries).IsPlain)
    {i j : Nat} {e e' : Value × Value} {text : String} (hi : entries[i]? = some e)
    (hj : entries[j]? = some e') (he : e.1.scalarText? = some text)
    (he' : e'.1.scalarText? = some text) : i = j := by
  have hpairwise := List.pairwise_filterMap.mp (h.nodup entries (.self _))
  obtain ⟨hi', rfl⟩ := List.getElem?_eq_some_iff.mp hi
  obtain ⟨hj', rfl⟩ := List.getElem?_eq_some_iff.mp hj
  rcases Nat.lt_trichotomy i j with hlt | heq | hlt
  · exact absurd rfl (List.pairwise_iff_getElem.mp hpairwise i j hi' hj' hlt _ he _ he')
  · exact heq
  · exact absurd rfl (List.pairwise_iff_getElem.mp hpairwise j i hj' hi' hlt _ he' _ he)

theorem natText_inj {m n : Nat}
    (h : String.ofList (Decimal.natText m) = String.ofList (Decimal.natText n)) : m = n := by
  have hdigits : Nat.toDigits 10 m = Nat.toDigits 10 n := String.ofList_injective h
  have hread : ∀ k, Nat.ofDigitChars 10 (Nat.toDigits 10 k) 0 = k := fun k =>
    Nat.ofDigitChars_toDigits (by decide) (by decide)
  rw [← hread m, hdigits, hread n]

/-- No two leaves of a plain value have the same segments. -/
theorem Holds.eq_of_path_eq (hv : v.IsPlain) (h : v.Holds place leaf) (h' : v.Holds place' leaf')
    (hpath : leaf.path = leaf'.path) : place = place' ∧ leaf = leaf' := by
  induction h generalizing place' leaf' with
  | scalar hs =>
    obtain ⟨rfl, rfl⟩ := (holds_scalar_iff hs).mp h'
    exact ⟨rfl, rfl⟩
  | tagged h ih => exact ih (hv.part fun _ => .tagged) (holds_tagged_iff.mp h') hpath
  | @item items i u p l hi h ih =>
    cases h' with
    | scalar hs => simp [scalarText?] at hs
    | @item _ j u' p' l' hj h' =>
      obtain ⟨hsegment, hrest⟩ := List.cons.inj hpath
      obtain rfl : i = j := natText_inj hsegment
      obtain rfl : u = u' := Option.some.inj (hi.symm.trans hj)
      have hu : u.IsPlain := hv.part fun _ => .item (List.mem_of_getElem? hi)
      obtain ⟨rfl, rfl⟩ := ih hu h' hrest
      exact ⟨rfl, rfl⟩
  | @entry entries i k u segment p l hi hk h ih =>
    cases h' with
    | scalar hs => simp [scalarText?] at hs
    | @entry _ j k' u' segment' p' l' hj hk' h' =>
      obtain ⟨hsegment, hrest⟩ := List.cons.inj hpath
      obtain rfl : segment = segment' := hsegment
      obtain rfl : i = j := hv.index_eq hi hj hk hk'
      obtain ⟨rfl, rfl⟩ := Prod.mk.inj (Option.some.inj (hi.symm.trans hj))
      have hu : u.IsPlain := hv.part fun _ => .entry (List.mem_of_getElem? hi) hk
      obtain ⟨rfl, rfl⟩ := ih hu h' hrest
      exact ⟨rfl, rfl⟩

/-- The segments of the leaves of a plain value have no slash in them. -/
theorem Holds.slash_notMem (hv : v.IsPlain) (h : v.Holds place leaf) :
    ∀ segment ∈ leaf.path, '/' ∉ segment.toList := by
  induction h with
  | scalar => simp
  | tagged h ih => exact ih (hv.part fun _ => .tagged)
  | @item items i u p l hi h ih =>
    refine List.forall_mem_cons.mpr ⟨fun hslash => ?_, ?_⟩
    · rw [String.toList_ofList] at hslash
      have hdigit := Nat.isDigit_of_mem_toDigits (by decide) (by decide) hslash
      exact absurd hdigit (by decide)
    · exact ih (hv.part fun _ => .item (List.mem_of_getElem? hi))
  | @entry entries i k u segment p l hi hk h ih =>
    have hmem := List.mem_of_getElem? hi
    refine List.forall_mem_cons.mpr ⟨?_, ih (hv.part fun _ => .entry hmem hk)⟩
    exact hv.slash_notMem entries (.self _) (k, u) hmem segment hk

/-- Only a scalar, with tags or without, has a leaf without segments, and it has no other. -/
theorem Holds.path_eq_nil (h : v.Holds place leaf) (hnil : leaf.path = [])
    (h' : v.Holds place' leaf') : leaf'.path = [] := by
  induction h generalizing place' leaf' with
  | scalar hs =>
    obtain ⟨-, rfl⟩ := (holds_scalar_iff hs).mp h'
    rfl
  | tagged h ih => exact ih hnil (holds_tagged_iff.mp h')
  | item | entry => simp [Leaf.under] at hnil

end Value

end Steward.Yaml
