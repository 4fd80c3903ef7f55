import Mathlib.Data.List.Nodup
import Mathlib.Data.List.Forall2
import Steward.World.Basic

/-!
# The order in which directories are listed

What a path leads to does not depend on the order in which the entries of a directory are listed.
So two trees that differ in that only have the same files, and the same directories up to the order
of the names in them.

Results:
* `FileTree.Rearranges.find`: what a path leads to in trees that differ in the order of entries.
* `FileTree.Rearranges.readText_eq`, `FileTree.Rearranges.list_cases`: what is read there.
-/

namespace Steward

namespace Node

/-- The same files in directories whose entries may be listed in another order. No name stands twice
    in a directory. -/
inductive Rearranges : Node → Node → Prop where
  | refl (node : Node) : Rearranges node node
  /-- The entries of a directory in another order. -/
  | listing {entries entries' : List (Octets × Node)} (hperm : entries.Perm entries')
      (hnames : (entries.map (·.1)).Nodup) : Rearranges (directory entries) (directory entries')
  /-- Another order somewhere below an entry. -/
  | within {before after : List (Octets × Node)} {name : Octets} {node node' : Node}
      (h : Rearranges node node') :
      Rearranges (directory (before ++ (name, node) :: after))
        (directory (before ++ (name, node') :: after))
  | trans {a b c : Node} (h : Rearranges a b) (h' : Rearranges b c) : Rearranges a c

/-- Two answers that tell the same, but for the order of entries. -/
inductive Alike : Except IoError Node → Except IoError Node → Prop where
  | error (e : IoError) : Alike (.error e) (.error e)
  | ok {node node' : Node} (h : Rearranges node node') : Alike (.ok node) (.ok node')

variable {a b node node' : Node} {entries : List (Octets × Node)}

/-! ## Entries -/

theorem lookup_eq_some_iff_mem (hnames : (entries.map (·.1)).Nodup) {name : Octets} :
    entries.lookup name = some node ↔ (name, node) ∈ entries := by
  induction entries with
  | nil => simp
  | cons e rest ih =>
    obtain ⟨first, inner⟩ := e
    obtain ⟨hfirst, hrest⟩ := List.nodup_cons.mp hnames
    rw [List.lookup_cons, List.mem_cons, Prod.mk.injEq]
    by_cases h : name = first
    · subst h
      have hnot : (name, node) ∉ rest := fun hmem =>
        hfirst (List.mem_map.mpr ⟨(name, node), hmem, rfl⟩)
      simp [hnot, eq_comm]
    · have hbeq : (name == first) = false := beq_eq_false_iff_ne.mpr h
      simp [hbeq, h, ih hrest]

theorem lookup_perm {entries entries' : List (Octets × Node)} (hperm : entries.Perm entries')
    (hnames : (entries.map (·.1)).Nodup) (name : Octets) :
    entries.lookup name = entries'.lookup name := by
  have hnames' : (entries'.map (·.1)).Nodup := (hperm.map _).nodup_iff.mp hnames
  ext node
  rw [lookup_eq_some_iff_mem hnames, lookup_eq_some_iff_mem hnames', hperm.mem_iff]

theorem rel_refl (found : Option Node) : Option.Rel Rearranges found found := by
  cases found with
  | none => exact .none
  | some node => exact .some (.refl node)

/-- What a rearranged directory is: one that has rearranged entries under the same names. -/
theorem Rearranges.directory_cases (h : a.Rearranges b) (ha : a = directory entries) :
    ∃ entries', b = directory entries' ∧ (entries.map (·.1)).Perm (entries'.map (·.1)) ∧
      ∀ name, Option.Rel Rearranges (entries.lookup name) (entries'.lookup name) := by
  induction h generalizing entries with
  | refl node => exact ⟨entries, ha, .refl _, fun name => rel_refl _⟩
  | @listing old new hperm hnames =>
    obtain rfl : old = entries := directory.inj ha
    refine ⟨new, rfl, hperm.map _, fun name => ?_⟩
    rw [lookup_perm hperm hnames]
    exact rel_refl _
  | @within before after inner old new h ih =>
    obtain rfl := directory.inj ha
    refine ⟨_, rfl, by simp, fun name => ?_⟩
    rw [List.lookup_append, List.lookup_append]
    cases before.lookup name with
    | some found => exact rel_refl _
    | none =>
      rw [List.lookup_cons, List.lookup_cons]
      cases name == inner with
      | true => exact .some h
      | false => exact rel_refl _
  | trans h h' ih ih' =>
    obtain ⟨middle, hmiddle, hperm, hlookup⟩ := ih ha
    obtain ⟨entries', hb, hperm', hlookup'⟩ := ih' hmiddle
    refine ⟨entries', hb, hperm.trans hperm', fun name => ?_⟩
    have hname := hlookup name
    have hname' := hlookup' name
    generalize entries.lookup name = x, middle.lookup name = y, entries'.lookup name = z at *
    cases hname with
    | none => exact hname'
    | some h =>
      cases hname' with
      | some h' => exact .some (h.trans h')

/-- What is not a directory has nothing to rearrange. -/
theorem Rearranges.eq_of_ne_directory (h : a.Rearranges b) (ha : ∀ entries, a ≠ directory entries) :
    b = a := by
  induction h with
  | refl node => rfl
  | listing | within => exact absurd rfl (ha _)
  | trans _ _ ih ih' =>
    obtain rfl := ih ha
    exact ih' ha

/-! ## Paths -/

theorem headD_rearranges {above above' : List Node} (habove : List.Forall₂ Rearranges above above')
    (h : node.Rearranges node') : (above.headD node).Rearranges (above'.headD node') := by
  cases habove with
  | nil => exact h
  | cons h _ => exact h

theorem tail_forall₂ {above above' : List Node} (h : List.Forall₂ Rearranges above above') :
    List.Forall₂ Rearranges above.tail above'.tail := by
  cases h with
  | nil => exact .nil
  | cons _ h => exact h

/-- A path leads to the same place from rearranged directories. -/
theorem follow_alike {above above' : List Node} (h : node.Rearranges node')
    (habove : List.Forall₂ Rearranges above above') (path : List Octets) :
    Alike (node.follow path above) (node'.follow path above') := by
  induction path generalizing node node' above above' with
  | nil => exact .ok h
  | cons segment path ih =>
    cases node with
    | file content =>
      obtain rfl := h.eq_of_ne_directory (by simp)
      exact .error _
    | closed cause =>
      obtain rfl := h.eq_of_ne_directory (by simp)
      exact .error _
    | directory entries =>
      obtain ⟨entries', rfl, -, hlookup⟩ := h.directory_cases rfl
      unfold follow
      dsimp only
      split_ifs
      · exact ih h habove
      · exact ih (headD_rearranges habove h) (tail_forall₂ habove)
      · exact .error _
      · have hfound := hlookup segment
        generalize entries.lookup segment = x, entries'.lookup segment = y at *
        cases hfound with
        | none => exact .error _
        | some hfound => exact ih hfound (.cons h habove)

end Node

namespace FileTree

/-- The same files, and the same working directory. -/
structure Rearranges (a b : FileTree) : Prop where
  root : a.root.Rearranges b.root
  workingDirectory : a.workingDirectory = b.workingDirectory

variable {a b : FileTree}

theorem Rearranges.find (h : a.Rearranges b) (path : FilePath) :
    Node.Alike (a.find path) (b.find path) := by
  unfold FileTree.find
  rw [h.workingDirectory]
  split_ifs
  · exact .error _
  · exact .error _
  · exact .error _
  · exact Node.follow_alike h.root .nil _
  · exact Node.follow_alike h.root .nil _

/-- The text of a file does not depend on the order of entries. -/
theorem Rearranges.readText_eq (h : a.Rearranges b) (path : FilePath) :
    a.readText path = b.readText path := by
  unfold readText
  have hfind := h.find path
  generalize a.find path = x, b.find path = y at *
  cases hfind with
  | error => rfl
  | @ok node node' hnode =>
    cases node with
    | file | closed => rw [hnode.eq_of_ne_directory (by simp)]
    | directory entries =>
      obtain ⟨entries', rfl, -, -⟩ := hnode.directory_cases rfl
      rfl

/-- The names in a directory do not depend on the order of entries. -/
theorem Rearranges.list_cases (h : a.Rearranges b) (path : FilePath) :
    a.list path = b.list path ∨
      ∃ names names', a.list path = .ok names ∧ b.list path = .ok names' ∧ names.Perm names' := by
  unfold list
  have hfind := h.find path
  generalize a.find path = x, b.find path = y at *
  cases hfind with
  | error => exact .inl rfl
  | @ok node node' hnode =>
    cases node with
    | file | closed =>
      rw [hnode.eq_of_ne_directory (by simp)]
      exact .inl rfl
    | directory entries =>
      obtain ⟨entries', rfl, hperm, -⟩ := hnode.directory_cases rfl
      exact .inr ⟨_, _, rfl, rfl, hperm⟩

end FileTree

end Steward
