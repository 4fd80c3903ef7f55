import Mathlib.Data.List.Nodup
import Steward.Toml.Statement

/-!
# Fields under construction

While a document is read, fields are only added under names that are new, and tables are changed in
place. So the names of a table stay distinct, at any depth, and so do those of the values that the
tables become in the end.

Results:
* `AreDistinct.changeAt?`: a change at a path keeps names distinct if the change itself does.
* `AreDistinct.insert?`: so does a new value at a path.
* `AreDistinct.toTable`: the finished tables have distinct names.
-/

namespace Steward.Toml

/-! ## Distinct names -/

/-- In a value, no table has two fields of the same name, at any depth. -/
inductive Value.HasDistinctNames : Value → Prop where
  | string (text : String) : HasDistinctNames (.string text)
  | integer (n : Int) : HasDistinctNames (.integer n)
  | float (x : Binary64) : HasDistinctNames (.float x)
  | boolean (b : Bool) : HasDistinctNames (.boolean b)
  | moment (text : String) : HasDistinctNames (.moment text)
  | array {items : List Value} (h : ∀ v ∈ items, HasDistinctNames v) :
      HasDistinctNames (.array items)
  | table {fields : Table} (hnames : (fields.map (·.1)).Nodup)
      (h : ∀ f ∈ fields, HasDistinctNames f.2) : HasDistinctNames (.table fields)

/-- In an item, no table has two fields of the same name, at any depth. -/
inductive Item.HasDistinctNames : Item → Prop where
  | value {v : Value} (h : v.HasDistinctNames) : HasDistinctNames (.value v)
  | table {origin : Origin} {fields : Fields} (hnames : (fields.map (·.1)).Nodup)
      (h : ∀ f ∈ fields, HasDistinctNames f.2) : HasDistinctNames (.table origin fields)
  | tables {elements : List Fields} (hnames : ∀ fields ∈ elements, (fields.map (·.1)).Nodup)
      (h : ∀ fields ∈ elements, ∀ f ∈ fields, HasDistinctNames f.2) :
      HasDistinctNames (.tables elements)

/-- Fields with distinct names, which have distinct names in them. -/
structure Fields.AreDistinct (fields : Fields) : Prop where
  nodup : (fields.map (·.1)).Nodup
  inner : ∀ f ∈ fields, f.2.HasDistinctNames

/-! ## Looking up names -/

section
variable {β : Type} {fields : List (String × β)} {name : String} {b : β}

theorem mem_of_lookup (h : fields.lookup name = some b) : (name, b) ∈ fields := by
  obtain ⟨before, after, rfl, -⟩ := List.lookup_eq_some_iff.mp h
  simp

theorem notMem_of_lookup (h : fields.lookup name = none) : name ∉ fields.map (·.1) := by
  intro hmem
  obtain ⟨f, hf, rfl⟩ := List.mem_map.mp hmem
  simpa using List.lookup_eq_none_iff.mp h f hf

end

/-! ## Adding and changing fields -/

namespace Fields

variable {fields fields' new : Fields} {name : String} {item : Item}

theorem areDistinct_nil : AreDistinct [] := ⟨List.nodup_nil, by simp⟩

theorem AreDistinct.of_lookup (h : fields.AreDistinct) (hname : fields.lookup name = some item) :
    item.HasDistinctNames :=
  h.inner _ (mem_of_lookup hname)

theorem AreDistinct.concat (h : fields.AreDistinct) (hname : fields.lookup name = none)
    (hitem : item.HasDistinctNames) : AreDistinct (fields ++ [(name, item)]) := by
  constructor
  · have hnames := h.nodup.concat (notMem_of_lookup hname)
    rw [List.concat_eq_append] at hnames
    rw [List.map_append]
    exact hnames
  · intro f hf
    obtain hf | hf := List.mem_append.mp hf
    · exact h.inner f hf
    · rw [List.mem_singleton.mp hf]
      exact hitem

theorem map_fst_replace (fields : Fields) (name : String) (item : Item) :
    (fields.replace name item).map (·.1) = fields.map (·.1) := by
  unfold replace
  rw [List.map_map]
  apply List.map_congr_left
  intro f _
  show (if f.1 = name then (name, item) else f).1 = f.1
  split
  · exact Eq.symm ‹_›
  · rfl

theorem AreDistinct.replace (h : fields.AreDistinct) (name : String)
    (hitem : item.HasDistinctNames) : AreDistinct (fields.replace name item) := by
  constructor
  · rw [map_fst_replace]
    exact h.nodup
  · intro f hf
    obtain ⟨old, hold, rfl⟩ := List.mem_map.mp hf
    split
    · exact hitem
    · exact h.inner old hold

theorem AreDistinct.filter (h : fields.AreDistinct) (p : String × Item → Bool) :
    AreDistinct (fields.filter p) where
  nodup := h.nodup.sublist (List.filter_sublist.map _)
  inner f hf := h.inner f (List.mem_of_mem_filter hf)

/-! ## Tables -/

theorem areDistinct_of_table {origin : Origin} (h : (Item.table origin fields).HasDistinctNames) :
    fields.AreDistinct := by
  cases h with
  | table hnames h => exact ⟨hnames, h⟩

theorem areDistinct_of_tables {elements : List Fields} (h : (Item.tables elements).HasDistinctNames)
    (hmem : fields ∈ elements) : fields.AreDistinct := by
  cases h with
  | tables hnames h => exact ⟨hnames fields hmem, h fields hmem⟩

theorem AreDistinct.table (h : fields.AreDistinct) (origin : Origin) :
    (Item.table origin fields).HasDistinctNames :=
  .table h.nodup h.inner

theorem hasDistinctNames_tables {elements : List Fields}
    (h : ∀ fields ∈ elements, fields.AreDistinct) :
    (Item.tables elements).HasDistinctNames :=
  .tables (fun fields hmem => (h fields hmem).nodup) fun fields hmem => (h fields hmem).inner

/-- Another last element does not matter to an array of tables if its names are distinct. -/
theorem hasDistinctNames_concat {elements : List Fields}
    (h : ∀ fields ∈ elements, fields.AreDistinct) (hnew : new.AreDistinct) :
    (Item.tables (elements ++ [new])).HasDistinctNames := by
  apply hasDistinctNames_tables
  intro fields hmem
  obtain hmem | hmem := List.mem_append.mp hmem
  · exact h fields hmem
  · rw [List.mem_singleton.mp hmem]
    exact hnew

theorem changeLast?_eq_some {α : Type} {change : List α → Option (List α)}
    {elements elements' : List (List α)} (h : changeLast? change elements = some elements') :
    ∃ front last new, elements = front ++ [last] ∧ change last = some new ∧
      elements' = front ++ [new] := by
  unfold changeLast? at h
  cases hlast : elements.getLast? with
  | none =>
    rw [hlast] at h
    cases h
  | some last =>
    rw [hlast] at h
    obtain ⟨new, hnew, rfl⟩ := Option.map_eq_some_iff.mp h
    obtain ⟨front, rfl⟩ := List.getLast?_eq_some_iff.mp hlast
    exact ⟨front, last, new, rfl, hnew, by rw [List.dropLast_concat]⟩

/-- A change at a path keeps names distinct if the change itself does. -/
theorem AreDistinct.changeAt? {isDotted : Bool} {change : Origin → Fields → Option Fields}
    (hchange : ∀ origin fields new, fields.AreDistinct → change origin fields = some new →
      new.AreDistinct)
    (h : fields.AreDistinct) {path : List String} {origin : Origin}
    (hnew : fields.changeAt? isDotted change path origin = some new) : new.AreDistinct := by
  induction path generalizing fields origin new with
  | nil => exact hchange origin fields new h hnew
  | cons name path ih =>
    rw [Fields.changeAt?] at hnew
    split at hnew
    · -- A table that is not there yet is made on the way.
      rename_i hname
      obtain ⟨inner, hinner, rfl⟩ := Option.map_eq_some_iff.mp hnew
      exact h.concat hname ((ih areDistinct_nil hinner).table _)
    · cases hnew
    · rename_i origin' inner hname
      split at hnew
      · cases hnew
      · obtain ⟨inner', hinner, rfl⟩ := Option.map_eq_some_iff.mp hnew
        have hold : AreDistinct inner := areDistinct_of_table (h.of_lookup hname)
        exact h.replace name ((ih hold hinner).table origin')
    · rename_i elements hname
      obtain ⟨elements', helements, rfl⟩ := Option.map_eq_some_iff.mp hnew
      obtain ⟨front, last, inner, rfl, hinner, rfl⟩ := changeLast?_eq_some helements
      have hold : ∀ fields ∈ front ++ [last], AreDistinct fields :=
        fun fields hmem => areDistinct_of_tables (h.of_lookup hname) hmem
      apply h.replace name
      apply hasDistinctNames_concat
      · exact fun fields hmem => hold fields (List.mem_append_left _ hmem)
      · exact ih (hold last (by simp)) hinner

/-- A new value at a path keeps names distinct. -/
theorem AreDistinct.insert? {v : Value} (hv : v.HasDistinctNames) (h : fields.AreDistinct)
    {path : List String} (hnew : fields.insert? path name v = some new) : new.AreDistinct := by
  apply h.changeAt? _ hnew
  intro origin target new htarget hnew
  split at hnew
  · cases hnew
  · split at hnew
    · cases hnew
    · rename_i hname
      cases hnew
      exact htarget.concat (Option.not_isSome_iff_eq_none.mp hname) (.value hv)

/-! ## Finished tables -/

theorem toTable_eq_map (fields : Fields) :
    toTable fields = fields.map fun f => (f.1, f.2.toValue) := by
  induction fields with
  | nil => rfl
  | cons f fields ih =>
    obtain ⟨name, item⟩ := f
    rw [toTable, ih, List.map_cons]

theorem elementValues_eq_map (elements : List Fields) :
    elementValues elements = elements.map fun fields => .table (toTable fields) := by
  induction elements with
  | nil => rfl
  | cons fields elements ih => rw [elementValues, ih, List.map_cons]

theorem hasDistinctNames_toTable (hnames : (fields.map (·.1)).Nodup)
    (h : ∀ f ∈ fields, f.2.toValue.HasDistinctNames) :
    (Value.table (toTable fields)).HasDistinctNames := by
  rw [toTable_eq_map]
  constructor
  · rw [List.map_map]
    exact hnames
  · intro f hf
    obtain ⟨old, hold, rfl⟩ := List.mem_map.mp hf
    exact h old hold

end Fields

theorem Item.HasDistinctNames.toValue {item : Item} (h : item.HasDistinctNames) :
    item.toValue.HasDistinctNames := by
  induction h with
  | value h => exact h
  | table hnames _ ih => exact Fields.hasDistinctNames_toTable hnames ih
  | tables hnames _ ih =>
    rw [Item.toValue, Fields.elementValues_eq_map]
    constructor
    intro v hv
    obtain ⟨fields, hfields, rfl⟩ := List.mem_map.mp hv
    exact Fields.hasDistinctNames_toTable (hnames fields hfields) (ih fields hfields)

/-- The finished table has distinct names. -/
theorem Fields.AreDistinct.toTable {fields : Fields} (h : fields.AreDistinct) :
    (Value.table (Fields.toTable fields)).HasDistinctNames :=
  Fields.hasDistinctNames_toTable h.nodup fun f hf => (h.inner f hf).toValue

end Steward.Toml
