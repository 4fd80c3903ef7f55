import Steward.Proofs.Config.Loading
import Steward.Proofs.Toml.Names

/-!
# What a record is decoded to

A record is decoded field by field. Each field has its own part of the result, which no other field
changes. So if the names are distinct, each part is what its field is decoded to, wherever the field
stands. The group of backends takes no other fields than its own: if it can be decoded, it names no
other backend, and each one that it names is in the result.

Results:
* `Takes.decode_eq`, `Takes.part_eq`: the part of a field that is there, and of one that is not.
* `accounts_of_decodeResource`: no backend that a resource declares is passed over.
-/

namespace Steward.Config

open Toml (Value Table)

/-! ## Fields of records -/

section
variable {α β : Type} {take : α → String → Value → Except DecodeError α} {name : String}
  {decode : Value → Except DecodeError β} {part : α → β} {fields : Table} {start a : α} {v : Value}

theorem exists_of_bind_eq_ok {ε : Type} {x : Except ε α} {f : α → Except ε β} {b : β}
    (h : x >>= f = .ok b) : ∃ a, x = .ok a ∧ f a = .ok b := by
  cases x with
  | error e => cases h
  | ok a => exact ⟨a, rfl, h⟩

/-- A field has a part of the result to itself: it decodes that part, and other fields leave it as
    it is. -/
structure Takes (take : α → String → Value → Except DecodeError α) (name : String)
    (decode : Value → Except DecodeError β) (part : α → β) : Prop where
  own : ∀ a v a', take a name v = .ok a' → decode v = .ok (part a')
  other : ∀ a n v a', n ≠ name → take a n v = .ok a' → part a' = part a

/-- A part whose field is not there stays as it was. -/
theorem Takes.part_eq (h : Takes take name decode part) (hname : name ∉ fields.map (·.1))
    (hok : fields.foldlM (fun a f => take a f.1 f.2) start = .ok a) : part a = part start := by
  induction fields generalizing start with
  | nil =>
    cases hok
    rfl
  | cons f rest ih =>
    rw [List.map_cons, List.mem_cons, not_or] at hname
    rw [List.foldlM_cons] at hok
    obtain ⟨next, hnext, hok⟩ := exists_of_bind_eq_ok hok
    rw [ih hname.2 hok, h.other _ _ _ _ (Ne.symm hname.1) hnext]

/-- The part of a field that is there is what the field is decoded to. -/
theorem Takes.decode_eq (h : Takes take name decode part) (hnames : (fields.map (·.1)).Nodup)
    (hmem : (name, v) ∈ fields)
    (hok : fields.foldlM (fun a f => take a f.1 f.2) start = .ok a) : decode v = .ok (part a) := by
  induction fields generalizing start with
  | nil => cases hmem
  | cons f rest ih =>
    obtain ⟨hfirst, hrest⟩ := List.nodup_cons.mp hnames
    rw [List.foldlM_cons] at hok
    obtain ⟨next, hnext, hlater⟩ := exists_of_bind_eq_ok hok
    obtain rfl | hmem := List.mem_cons.mp hmem
    · -- No later field has this name, so what was decoded here is kept to the end.
      rw [h.part_eq hfirst hlater]
      exact h.own _ _ _ hnext
    · exact ih hrest hmem hlater

/-- A change of the result that leaves a part alone does so whatever it puts elsewhere. -/
theorem part_eq_of_map {γ : Type} {x : Except DecodeError γ} {change : γ → α} {a' : α}
    (h : x.map change = .ok a') (hchange : ∀ c, part (change c) = part a) : part a' = part a := by
  obtain ⟨c, -, rfl⟩ := exists_of_map_eq_ok h
  exact hchange c

/-- Every field of a record that is decoded was taken. -/
theorem exists_take_of_mem (hok : fields.foldlM (fun a f => take a f.1 f.2) start = .ok a) :
    ∀ f ∈ fields, ∃ before after, take before f.1 f.2 = .ok after := by
  induction fields generalizing start with
  | nil => simp
  | cons f rest ih =>
    rw [List.foldlM_cons] at hok
    obtain ⟨next, hnext, hok⟩ := exists_of_bind_eq_ok hok
    exact List.forall_mem_cons.mpr ⟨⟨start, next, hnext⟩, ih hok⟩

end

theorem takes_resources : Takes takeConfiguration "resource" (decodeList decodeResource)
    Configuration.resources where
  own a v a' h := by
    obtain ⟨resources, hv, rfl⟩ := exists_of_map_eq_ok h
    exact hv
  other a n v a' hn h := by
    unfold takeConfiguration at h
    split at h
    · exact part_eq_of_map h fun _ => rfl
    · exact part_eq_of_map h fun _ => rfl
    · exact part_eq_of_map h fun _ => rfl
    · exact absurd rfl hn
    · cases h
      rfl

theorem takes_backends : Takes takeResource "backend" decodeGroup Resource.backends where
  own a v a' h := by
    obtain ⟨group, hv, rfl⟩ := exists_of_map_eq_ok h
    exact hv
  other a n v a' hn h := by
    unfold takeResource at h
    split at h
    · exact part_eq_of_map h fun _ => rfl
    · exact part_eq_of_map h fun _ => rfl
    · exact absurd rfl hn
    · cases h
      rfl

theorem takes_env : Takes takeGroup "env" (fun v => (decodeEnvironmentSection v).map some)
    Backend.Group.env where
  own a v a' h := by
    obtain ⟨s, hv, rfl⟩ := exists_of_map_eq_ok h
    rw [hv]
    rfl
  other a n v a' hn h := by
    unfold takeGroup at h
    split at h
    · exact absurd rfl hn
    · exact part_eq_of_map h fun _ => rfl
    · cases h

theorem takes_file : Takes takeGroup "file" (fun v => (decodeFileSection v).map some)
    Backend.Group.file where
  own a v a' h := by
    obtain ⟨s, hv, rfl⟩ := exists_of_map_eq_ok h
    rw [hv]
    rfl
  other a n v a' hn h := by
    unfold takeGroup at h
    split at h
    · exact part_eq_of_map h fun _ => rfl
    · exact absurd rfl hn
    · cases h

/-! ## Lists of records -/

/-- The elements of a list that is decoded are decoded one by one. -/
theorem forall₂_of_decodeList {α : Type} {decode : Value → Except DecodeError α}
    {items : List Value} {decoded : List α} (h : decodeList decode (.array items) = .ok decoded) :
    List.Forall₂ (fun v a => decode v = .ok a) items decoded := by
  rw [decodeList] at h
  induction items generalizing decoded with
  | nil =>
    rw [List.mapM_nil] at h
    cases h
    exact .nil
  | cons v rest ih =>
    rw [List.mapM_cons] at h
    obtain ⟨a, ha, h⟩ := exists_of_bind_eq_ok h
    obtain ⟨later, hlater, h⟩ := exists_of_bind_eq_ok h
    cases h
    exact .cons ha (ih hlater)

/-! ## Backends -/

/-- A resource, written as a table or as an array of its fields, has a group of backends that is
    written as a table. -/
inductive DeclaresGroup (group : Table) : Value → Prop where
  | named {fields : Table} (h : ("backend", .table group) ∈ fields) :
      DeclaresGroup group (.table fields)
  | placed {items : List Value} (h : items[2]? = some (.table group)) :
      DeclaresGroup group (.array items)

/-- What becomes of the backends that a resource declares: there are none of an unknown kind, and
    those that there are get into the resource. -/
structure Accounts (written : Value) (r : Resource) : Prop where
  known : ∀ group, DeclaresGroup group written → ∀ s ∈ group, s.1 = "env" ∨ s.1 = "file"
  env : ∀ group v, DeclaresGroup group written → ("env", v) ∈ group →
    ∃ s, decodeEnvironmentSection v = .ok s ∧ r.backends.env = some s
  file : ∀ group v, DeclaresGroup group written → ("file", v) ∈ group →
    ∃ s, decodeFileSection v = .ok s ∧ r.backends.file = some s

theorem eq_or_eq_of_takeGroup {g g' : Backend.Group} {name : String} {v : Value}
    (h : takeGroup g name v = .ok g') : name = "env" ∨ name = "file" := by
  unfold takeGroup at h
  split at h
  · exact .inl rfl
  · exact .inr rfl
  · cases h

section
variable {group : Table} {g : Backend.Group} {v : Value} {r : Resource}

theorem map_fst_zip_sublist (names : List String) (items : List Value) :
    ((names.zip items).map (·.1)).Sublist names := by
  induction names generalizing items with
  | nil => exact List.Sublist.refl _
  | cons name names ih =>
    cases items with
    | nil => exact List.nil_sublist _
    | cons v items => exact (ih items).cons_cons name

theorem names_of_decodeGroup (h : decodeGroup (.table group) = .ok g) :
    ∀ s ∈ group, s.1 = "env" ∨ s.1 = "file" := by
  intro s hs
  have htaken : ∀ s ∈ group, ∃ before after, takeGroup before s.1 s.2 = .ok after :=
    exists_take_of_mem h
  obtain ⟨before, after, htake⟩ := htaken s hs
  exact eq_or_eq_of_takeGroup htake

theorem env_of_decodeGroup (hnames : (group.map (·.1)).Nodup) (hmem : ("env", v) ∈ group)
    (h : decodeGroup (.table group) = .ok g) :
    ∃ s, decodeEnvironmentSection v = .ok s ∧ g.env = some s := by
  obtain ⟨s, hs, hpart⟩ := exists_of_map_eq_ok (takes_env.decode_eq hnames hmem h)
  exact ⟨s, hs, hpart.symm⟩

theorem file_of_decodeGroup (hnames : (group.map (·.1)).Nodup) (hmem : ("file", v) ∈ group)
    (h : decodeGroup (.table group) = .ok g) :
    ∃ s, decodeFileSection v = .ok s ∧ g.file = some s := by
  obtain ⟨s, hs, hpart⟩ := exists_of_map_eq_ok (takes_file.decode_eq hnames hmem h)
  exact ⟨s, hs, hpart.symm⟩

/-- The group of a resource is decoded to the backends of the resource. -/
theorem decodeGroup_of_declaresGroup (hdistinct : v.HasDistinctNames)
    (hgroup : DeclaresGroup group v) (h : decodeResource v = .ok r) :
    (group.map (·.1)).Nodup ∧ decodeGroup (.table group) = .ok r.backends := by
  cases hgroup with
  | @named fields hmem =>
    cases hdistinct with
    | table hnames hinner =>
      cases hinner _ hmem with
      | table hgroup _ => exact ⟨hgroup, takes_backends.decode_eq hnames hmem h⟩
  | @placed items hitem =>
    cases hdistinct with
    | array hinner =>
      cases hinner _ (List.mem_of_getElem? hitem) with
      | table hgroup _ =>
        have hnames : ((["name", "template", "backend"].zip items).map (·.1)).Nodup :=
          List.Nodup.sublist (map_fst_zip_sublist _ items) (by decide)
        refine ⟨hgroup, takes_backends.decode_eq hnames ?_ h⟩
        exact List.mem_iff_getElem?.mpr ⟨2, List.getElem?_zip_eq_some.mpr ⟨rfl, hitem⟩⟩

/-- No backend that a resource declares is passed over. -/
theorem accounts_of_decodeResource (hdistinct : v.HasDistinctNames)
    (h : decodeResource v = .ok r) : Accounts v r where
  known group hgroup :=
    names_of_decodeGroup (decodeGroup_of_declaresGroup hdistinct hgroup h).2
  env group w hgroup hmem := by
    obtain ⟨hnames, hdecode⟩ := decodeGroup_of_declaresGroup hdistinct hgroup h
    exact env_of_decodeGroup hnames hmem hdecode
  file group w hgroup hmem := by
    obtain ⟨hnames, hdecode⟩ := decodeGroup_of_declaresGroup hdistinct hgroup h
    exact file_of_decodeGroup hnames hmem hdecode

end

end Steward.Config
