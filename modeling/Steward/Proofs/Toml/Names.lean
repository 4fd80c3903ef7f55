import Steward.Proofs.Toml.Fields
import Steward.Toml.Document

/-!
# The names in a document

A document that gives two values to one name is malformed. So no table of a document that can be
read has two fields of the same name, neither the document itself nor any table in it, be it written
inline, with dotted keys, or under headers.

Results:
* `hasDistinctNames_of_value?`: a value that is read has distinct names.
* `Draft.IsDistinct.step?`: a statement keeps the names of a draft distinct.
* `hasDistinctNames_of_parse?`: a document that is read has distinct names.
-/

namespace Steward.Toml

/-! ## Numbers and dates -/

theorem hasDistinctNames_of_ofInt? {n : Int} {v : Value} (h : Value.ofInt? n = some v) :
    v.HasDistinctNames := by
  unfold Value.ofInt? at h
  split at h
  · cases h
    exact .integer n
  · cases h

theorem hasDistinctNames_of_ofDecimal? {d : Decimal} {v : Value} (h : Value.ofDecimal? d = some v) :
    v.HasDistinctNames := by
  unfold Value.ofDecimal? at h
  split at h
  · cases h
  · cases h
    exact .float _

variable {text : List Char} {r : Value × List Char}

theorem hasDistinctNames_of_basedInteger? {base : Nat} (h : basedInteger? base text = some r) :
    r.1.HasDistinctNames := by
  obtain ⟨digits, -, h⟩ := Option.bind_eq_some_iff.mp h
  obtain ⟨v, hv, rfl⟩ := Option.map_eq_some_iff.mp h
  exact hasDistinctNames_of_ofInt? hv

theorem hasDistinctNames_of_decimalNumber? {negative : Bool}
    (h : decimalNumber? negative text = some r) : r.1.HasDistinctNames := by
  unfold decimalNumber? at h
  split at h
  · cases h
    exact .float _
  · cases h
    exact .float _
  · simp only [Option.bind_eq_bind, Option.bind_eq_some_iff, Option.pure_def] at h
    obtain ⟨whole, -, places, -, power, -, h⟩ := h
    split at h
    · simp only [Option.bind_eq_some_iff] at h
      obtain ⟨v, hv, h⟩ := h
      cases h
      exact hasDistinctNames_of_ofInt? hv
    · simp only [Option.bind_eq_some_iff] at h
      obtain ⟨d, -, v, hv, h⟩ := h
      cases h
      exact hasDistinctNames_of_ofDecimal? hv

theorem hasDistinctNames_of_numberOrMoment? (h : numberOrMoment? text = some r) :
    r.1.HasDistinctNames := by
  unfold numberOrMoment? at h
  split at h
  · obtain ⟨rest, -, rfl⟩ := Option.map_eq_some_iff.mp h
    exact .moment _
  · unfold number? at h
    split at h
    · exact hasDistinctNames_of_basedInteger? h
    · exact hasDistinctNames_of_basedInteger? h
    · exact hasDistinctNames_of_basedInteger? h
    · exact hasDistinctNames_of_decimalNumber? h
    · exact hasDistinctNames_of_decimalNumber? h
    · exact hasDistinctNames_of_decimalNumber? h

/-! ## Values -/

/-- What is read from texts of some length, or shorter ones, has distinct names. -/
structure ReadsDistinct (length : Nat) : Prop where
  value : ∀ nesting text r, text.length ≤ length → value? nesting text = some r →
    r.1.HasDistinctNames
  elements : ∀ nesting text r, text.length ≤ length → elements? nesting text = some r →
    ∀ v ∈ r.1, v.HasDistinctNames
  fields : ∀ nesting fields text r, text.length ≤ length → Fields.AreDistinct fields →
    inlineFields? nesting fields text = some r → r.1.AreDistinct

section
variable {rest : List Char} {nesting : Nat}

theorem array_step (ih : ReadsDistinct rest.length)
    (h : value? nesting ('[' :: rest) = some r) : r.1.HasDistinctNames := by
  rw [value?.eq_def] at h
  cases nesting with
  | zero => cases h
  | succ nesting =>
    simp only [Char.reduceEq, or_self, if_false, if_true] at h
    split at h
    · cases h
      exact .array (by simp)
    · split at h
      · rename_i hshorter
        obtain ⟨items, hitems, rfl⟩ := Option.map_eq_some_iff.mp h
        exact .array (ih.elements _ _ _ hshorter hitems)
      · cases h
    · cases h

theorem inlineTable_step (ih : ReadsDistinct rest.length)
    (h : value? nesting ('{' :: rest) = some r) : r.1.HasDistinctNames := by
  rw [value?.eq_def] at h
  cases nesting with
  | zero => cases h
  | succ nesting =>
    simp only [Char.reduceEq, or_self, if_false, if_true] at h
    split at h
    · cases h
      exact Fields.areDistinct_nil.toTable
    · split at h
      · rename_i hshorter
        obtain ⟨fields, hfields, rfl⟩ := Option.map_eq_some_iff.mp h
        exact (ih.fields _ _ _ _ hshorter Fields.areDistinct_nil hfields).toTable
      · cases h

theorem value_step {c : Char} (ih : ReadsDistinct rest.length)
    (h : value? nesting (c :: rest) = some r) : r.1.HasDistinctNames := by
  by_cases harray : c = '['
  · subst harray
    exact array_step ih h
  · by_cases htable : c = '{'
    · subst htable
      exact inlineTable_step ih h
    · -- What is left holds no other values.
      rw [value?.eq_def] at h
      simp only [if_neg harray, if_neg htable] at h
      split at h
      · obtain ⟨s, -, rfl⟩ := Option.map_eq_some_iff.mp h
        exact .string _
      · split at h
        · obtain ⟨-, h⟩ := Option.ite_none_right_eq_some.mp h
          cases h
          exact .boolean true
        · split at h
          · obtain ⟨-, h⟩ := Option.ite_none_right_eq_some.mp h
            cases h
            exact .boolean false
          · obtain ⟨-, h⟩ := Option.ite_none_right_eq_some.mp h
            exact hasDistinctNames_of_numberOrMoment? h

end

theorem elements_step {nesting : Nat} {r : List Value × List Char}
    (hvalue : ∀ v, value? nesting text = some v → v.1.HasDistinctNames)
    (ih : ∀ next r, next.length < text.length → elements? nesting next = some r →
      ∀ v ∈ r.1, v.HasDistinctNames)
    (h : elements? nesting text = some r) : ∀ v ∈ r.1, v.HasDistinctNames := by
  rw [elements?.eq_def] at h
  split at h
  · cases h
  · rename_i v behind hv
    have hfirst : v.HasDistinctNames := hvalue _ hv
    split at h
    · cases h
      exact List.forall_mem_singleton.mpr hfirst
    · split at h
      · cases h
        exact List.forall_mem_singleton.mpr hfirst
      · split at h
        · rename_i hshorter
          obtain ⟨later, hlater, rfl⟩ := Option.map_eq_some_iff.mp h
          exact List.forall_mem_cons.mpr ⟨hfirst, ih _ _ hshorter hlater⟩
        · cases h
      · cases h
    · cases h

theorem fields_step {nesting : Nat} {fields : Fields} {r : Fields × List Char}
    (hvalue : ∀ next v, next.length < text.length → value? nesting next = some v →
      v.1.HasDistinctNames)
    (ih : ∀ fields next r, next.length < text.length → Fields.AreDistinct fields →
      inlineFields? nesting fields next = some r → r.1.AreDistinct)
    (hfields : Fields.AreDistinct fields) (h : inlineFields? nesting fields text = some r) :
    r.1.AreDistinct := by
  rw [inlineFields?.eq_def] at h
  split at h
  · dsimp only at h
    split at h
    · rename_i hshorter
      split at h
      · cases h
      · rename_i v behind hv
        split at h
        · cases h
        · rename_i new hnew
          obtain ⟨name, -, hinsert⟩ := Option.bind_eq_some_iff.mp hnew
          have hdistinct : Fields.AreDistinct new :=
            hfields.insert? (hvalue _ _ hshorter hv) hinsert
          split at h
          · cases h
            exact hdistinct
          · split at h
            · rename_i hrest
              exact ih _ _ _ hrest hdistinct h
            · cases h
          · cases h
    · cases h
  · cases h

theorem readsDistinct (length : Nat) : ReadsDistinct length := by
  induction length using Nat.strongRecOn with
  | ind length ih =>
    -- Elements and fields begin with a value of the same text, so values come first.
    have hvalue : ∀ nesting text r, text.length ≤ length → value? nesting text = some r →
        r.1.HasDistinctNames := by
      intro nesting text r hlength h
      cases text with
      | nil =>
        rw [value?.eq_def] at h
        cases h
      | cons c rest => exact value_step (ih rest.length hlength) h
    refine ⟨hvalue, ?_, ?_⟩
    · intro nesting text r hlength h
      refine elements_step (fun v hv => hvalue _ _ _ hlength hv) ?_ h
      intro next r hnext
      exact (ih next.length (by omega)).elements _ _ _ (Nat.le_refl _)
    · intro nesting fields text r hlength hfields h
      refine fields_step (fun next v hnext hv => hvalue _ _ _ (by omega) hv) ?_ hfields h
      intro fields next r hnext
      exact (ih next.length (by omega)).fields _ _ _ _ (Nat.le_refl _)

/-- A value that is read has distinct names. -/
theorem hasDistinctNames_of_value? {nesting : Nat} (h : value? nesting text = some r) :
    r.1.HasDistinctNames :=
  (readsDistinct text.length).value _ _ _ (Nat.le_refl _) h

/-! ## Statements -/

/-- A statement gives no name a value in which names are not distinct. -/
def Statement.IsDistinct : Statement → Prop
  | .assign _ _ v => v.HasDistinctNames
  | .openTable .. | .openElement .. => True

theorem isDistinct_of_statement? {s : Statement × List Char} (h : statement? text = some s) :
    s.1.IsDistinct := by
  unfold statement? at h
  split at h
  · split at h
    · simp only [Option.bind_eq_bind, Option.bind_eq_some_iff, Option.pure_def] at h
      obtain ⟨path, -, next, -, h⟩ := h
      cases h
      trivial
    · cases h
  · split at h
    · simp only [Option.bind_eq_bind, Option.bind_eq_some_iff, Option.pure_def] at h
      obtain ⟨path, -, next, -, h⟩ := h
      cases h
      trivial
    · cases h
  · split at h
    · simp only [Option.bind_eq_bind, Option.bind_eq_some_iff, Option.pure_def] at h
      obtain ⟨path, -, v, hv, next, -, h⟩ := h
      cases h
      exact hasDistinctNames_of_value? hv
    · cases h

theorem isDistinct_of_statements? {statements : List Statement}
    (h : statements? text = some statements) : ∀ s ∈ statements, s.IsDistinct := by
  fun_induction statements? text generalizing statements with
  | case1 =>
    cases h
    simp
  | case2 text c rest hskip hc next hnext hshorter ih => exact ih h
  | case5 text c rest hskip hc s next hs hshorter ih =>
    obtain ⟨later, hlater, rfl⟩ := Option.map_eq_some_iff.mp h
    exact List.forall_mem_cons.mpr ⟨isDistinct_of_statement? hs, ih hlater⟩
  | case3 | case4 | case6 | case7 => cases h

/-! ## Documents -/

/-- A draft in which the names are distinct. -/
structure Draft.IsDistinct (d : Draft) : Prop where
  closed : d.closed.AreDistinct
  body : d.body.AreDistinct

namespace Draft

variable {d d' : Draft} {fields new : Fields} {path : List String}

theorem isDistinct_empty : empty.IsDistinct := ⟨Fields.areDistinct_nil, Fields.areDistinct_nil⟩

theorem areDistinct_of_changeAt? {change : Fields → Option Fields}
    (hchange : ∀ target new, Fields.AreDistinct target → change target = some new →
      new.AreDistinct)
    (h : fields.AreDistinct) (hnew : changeAt? fields path change = some new) : new.AreDistinct :=
  h.changeAt? (fun _ => hchange) hnew

/-- The document with the open section in its place has distinct names. -/
theorem IsDistinct.close? (h : d.IsDistinct) (hnew : d.close? = some new) : new.AreDistinct := by
  unfold Draft.close? at hnew
  split at hnew
  · cases hnew
    exact h.body
  · refine areDistinct_of_changeAt? ?_ h.closed hnew
    intro target new htarget hnew
    split at hnew
    · rename_i hname
      cases hnew
      exact htarget.concat hname (h.body.table .header)
    · cases hnew
  · refine areDistinct_of_changeAt? ?_ h.closed hnew
    intro target new htarget hnew
    split at hnew
    · rename_i elements hname
      cases hnew
      apply htarget.replace
      apply Fields.hasDistinctNames_concat _ h.body
      exact fun fields hmem => Fields.areDistinct_of_tables (htarget.of_lookup hname) hmem
    · rename_i hname
      cases hnew
      apply htarget.concat hname
      apply Fields.hasDistinctNames_tables
      exact List.forall_mem_singleton.mpr h.body
    · cases hnew

theorem hasDistinctNames_of_find? {name : String} {item : Item} (h : fields.AreDistinct)
    (hitem : find? path name fields = some item) : item.HasDistinctNames := by
  induction path generalizing fields with
  | nil => exact h.of_lookup hitem
  | cons key path ih =>
    rw [find?] at hitem
    split at hitem
    · rename_i hkey
      exact ih (Fields.areDistinct_of_table (h.of_lookup hkey)) hitem
    · rename_i elements hkey
      obtain ⟨last, hlast, hitem⟩ := Option.bind_eq_some_iff.mp hitem
      have hmem : last ∈ elements := List.mem_of_getLast? hlast
      exact ih (Fields.areDistinct_of_tables (h.of_lookup hkey) hmem) hitem
    · cases hitem

theorem areDistinct_of_reopened? {found : Option Item}
    (h : ∀ item ∈ found, item.HasDistinctNames) (hnew : reopened? found = some new) :
    new.AreDistinct := by
  unfold reopened? at hnew
  split at hnew
  · cases hnew
    exact Fields.areDistinct_nil
  · cases hnew
    exact Fields.areDistinct_of_table (h _ rfl)
  · cases hnew

/-- A statement keeps the names of a draft distinct. -/
theorem IsDistinct.step? {s : Statement} (hs : s.IsDistinct) (h : d.IsDistinct)
    (hnew : d.step? s = some d') : d'.IsDistinct := by
  cases s with
  | assign path name v =>
    obtain ⟨body, hbody, rfl⟩ := Option.map_eq_some_iff.mp hnew
    exact ⟨h.closed, h.body.insert? hs hbody⟩
  | openTable path name =>
    simp only [Draft.step?, Option.bind_eq_bind, Option.bind_eq_some_iff, Option.pure_def] at hnew
    obtain ⟨whole, hwhole, inner, hinner, closed, hclosed, hnew⟩ := hnew
    cases hnew
    have hdistinct : whole.AreDistinct := h.close? hwhole
    constructor
    · refine areDistinct_of_changeAt? ?_ hdistinct hclosed
      intro target new htarget hnew
      cases hnew
      exact htarget.filter _
    · exact areDistinct_of_reopened? (fun _ => hasDistinctNames_of_find? hdistinct) hinner
  | openElement path name =>
    simp only [Draft.step?, Option.bind_eq_bind, Option.bind_eq_some_iff, Option.pure_def] at hnew
    obtain ⟨whole, hwhole, closed, hclosed, hnew⟩ := hnew
    cases hnew
    refine ⟨areDistinct_of_changeAt? ?_ (h.close? hwhole) hclosed, Fields.areDistinct_nil⟩
    intro target new htarget hnew
    split at hnew
    · rename_i hname
      cases hnew
      exact htarget.concat hname (Fields.hasDistinctNames_tables (by simp))
    · cases hnew
      exact htarget
    · cases hnew

theorem IsDistinct.foldlM {statements : List Statement} (hs : ∀ s ∈ statements, s.IsDistinct)
    (h : d.IsDistinct) (hnew : statements.foldlM Draft.step? d = some d') : d'.IsDistinct := by
  induction statements generalizing d with
  | nil =>
    cases hnew
    exact h
  | cons s rest ih =>
    obtain ⟨hfirst, hrest⟩ := List.forall_mem_cons.mp hs
    rw [List.foldlM_cons] at hnew
    obtain ⟨next, hnext, hnew⟩ := Option.bind_eq_some_iff.mp hnew
    exact ih hrest (h.step? hfirst hnext) hnew

end Draft

/-- A document that is read has distinct names. -/
theorem hasDistinctNames_of_parse? {text : String} {fields : Table}
    (h : parse? text = some fields) : (Value.table fields).HasDistinctNames := by
  simp only [parse?, Option.bind_eq_bind, Option.bind_eq_some_iff, Option.pure_def] at h
  obtain ⟨statements, hstatements, draft, hdraft, whole, hwhole, h⟩ := h
  cases h
  have hs := isDistinct_of_statements? hstatements
  exact ((Draft.isDistinct_empty.foldlM hs hdraft).close? hwhole).toTable

end Steward.Toml
