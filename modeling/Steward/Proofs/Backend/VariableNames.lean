import Steward.Backend.EnvironmentStore
import Steward.Proofs.Key.Under
import Steward.Proofs.Text.AsciiCase

/-!
# Names of variables and keys

A name of upper-case letters, digits and underscores and the key of it can be turned into each
other, character by character. So a variable is found by a key exactly if its own key begins with
the text of that key.

Results:
* `nameChar_keyChar`, `keyChar_nameChar`: the two ways are inverse to each other.
* `finds_iff`: the variables that a key finds.
-/

namespace Steward.Backend.EnvironmentStore

open Key (IsSegmentChar IsSegmented)

/-- An upper-case letter, a digit or an underscore. -/
def IsNameChar (c : Char) : Prop := 'A' ≤ c ∧ c ≤ 'Z' ∨ '0' ≤ c ∧ c ≤ '9' ∨ c = '_'

instance (c : Char) : Decidable (IsNameChar c) := inferInstanceAs (Decidable (_ ∨ _))

/-- A name of upper-case letters, digits and underscores that begins with a letter. -/
def IsVariableName (name : String) : Prop :=
  ∃ c rest, name.toList = c :: rest ∧ ('A' ≤ c ∧ c ≤ 'Z') ∧ ∀ d ∈ rest, IsNameChar d

variable {c : Char} {name wanted : String}

/-! ## Characters -/

/-- The character of a key for a character of a name. -/
def keyChar (c : Char) : Char := if c.toLower = '_' then '/' else c.toLower

/-- The character of a name for a character of a key. -/
def nameChar (c : Char) : Char := (if c = '/' then '_' else c).toUpper

theorem toNat_lt_of_isNameChar (h : IsNameChar c) : c.toNat < 0x80 := by
  rcases h with ⟨-, h⟩ | ⟨-, h⟩ | rfl
  · exact Nat.lt_of_le_of_lt (Char.le_def.mp h) (by decide)
  · exact Nat.lt_of_le_of_lt (Char.le_def.mp h) (by decide)
  · decide

theorem toNat_lt_of_isSegmentChar (h : IsSegmentChar c) : c.toNat < 0x80 := by
  rcases h with ⟨-, h⟩ | ⟨-, h⟩
  · exact Nat.lt_of_le_of_lt (Char.le_def.mp h) (by decide)
  · exact Nat.lt_of_le_of_lt (Char.le_def.mp h) (by decide)

theorem nameChar_keyChar (h : IsNameChar c) : nameChar (keyChar c) = c :=
  Text.forall_ascii (P := fun c => IsNameChar c → nameChar (keyChar c) = c) (by decide) c
    (toNat_lt_of_isNameChar h) h

theorem keyChar_nameChar (h : c = '/' ∨ IsSegmentChar c) : keyChar (nameChar c) = c := by
  rcases h with rfl | h
  · decide
  · exact Text.forall_ascii (P := fun c => IsSegmentChar c → keyChar (nameChar c) = c) (by decide) c
      (toNat_lt_of_isSegmentChar h) h

/-! ## Names -/

theorem IsVariableName.isNameChar (h : IsVariableName name) : ∀ c ∈ name.toList, IsNameChar c := by
  obtain ⟨c, rest, heq, hc, hrest⟩ := h
  rw [heq]
  exact List.forall_mem_cons.mpr ⟨.inl hc, hrest⟩

theorem keyOf_eq {name : List Char} (h : ∀ c ∈ name, IsNameChar c) :
    keyOf name = '/' :: name.map keyChar := by
  rw [keyOf, Text.toLower_of_ascii fun c hc => toNat_lt_of_isNameChar (h c hc), List.map_map]
  rfl

theorem variableName_eq {rest : List Char} (hc : c ≠ '/')
    (h : ∀ d ∈ c :: rest, d = '/' ∨ IsSegmentChar d) :
    variableName ('/' :: c :: rest) = (c :: rest).map nameChar := by
  have hdrop : ('/' :: c :: rest).dropWhile (· = '/') = c :: rest := by
    simp [hc]
  rw [variableName, hdrop, Text.toUpper_of_ascii, List.map_map]
  · rfl
  · intro d hd
    obtain ⟨e, he, rfl⟩ := List.mem_map.mp hd
    split
    · decide
    · next hne => exact toNat_lt_of_isSegmentChar ((h e he).resolve_left hne)

theorem map_nameChar_map_keyChar {name : List Char} (h : ∀ c ∈ name, IsNameChar c) :
    (name.map keyChar).map nameChar = name := by
  rw [List.map_map]
  exact (List.map_congr_left fun c hc => nameChar_keyChar (h c hc)).trans (List.map_id name)

theorem map_keyChar_map_nameChar {key : List Char} (h : ∀ c ∈ key, c = '/' ∨ IsSegmentChar c) :
    (key.map nameChar).map keyChar = key := by
  rw [List.map_map]
  exact (List.map_congr_left fun c hc => keyChar_nameChar (h c hc)).trans (List.map_id key)

theorem map_prefix_iff {key name : List Char} (hkey : ∀ c ∈ key, c = '/' ∨ IsSegmentChar c)
    (hname : ∀ c ∈ name, IsNameChar c) : key.map nameChar <+: name ↔ key <+: name.map keyChar := by
  constructor
  · intro h
    rw [← map_keyChar_map_nameChar hkey]
    exact h.map keyChar
  · intro h
    rw [← map_nameChar_map_keyChar hname]
    exact h.map nameChar

/-- A variable is found by a key exactly if its own key begins with the text of that key. -/
theorem finds_iff (hwanted : IsSegmented wanted) (hname : ∀ c ∈ name.toList, IsNameChar c) :
    finds wanted name = true ↔ wanted.toList <+: keyOf name.toList := by
  rw [finds, List.isPrefixOf_iff_prefix]
  rcases hwanted.cases with hnil | ⟨c, rest, heq, hc, hchars⟩
  · rw [hnil]
    exact iff_of_true List.nil_prefix List.nil_prefix
  · rw [heq, variableName_eq hc hchars, keyOf_eq hname, List.prefix_cons_inj]
    exact map_prefix_iff hchars hname

end Steward.Backend.EnvironmentStore
