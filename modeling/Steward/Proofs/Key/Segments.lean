import Mathlib.Data.List.DropRight
import Steward.Proofs.Key.Under
import Steward.Proofs.Key.Walk

/-!
# Keys by their segments

The segments of a key are what stands between its slashes, the empty ones included. A key lies under
another one if the segments of the other one, without the slashes at its end, are its first ones.
This holds of all keys, also of those with empty segments and of those that end with slashes.

Results:
* `splitOn_prefix_iff`: a text begins with the segments of another one if it is that text, or goes
  on behind it with a slash.
* `under_iff_segments`: the keys under a key, by their segments.
* `under_refl`, `under_trans`: being under is a preorder.
* `under_slashes`: slashes at the end of the upper key do not count.
-/

namespace Steward.Key

variable {text top : List Char}

/-! ## Segments -/

theorem splitOn_slash_injective : Function.Injective (List.splitOn '/' : List Char → _) := by
  have hinverse : Function.LeftInverse ['/'].intercalate (List.splitOn '/') :=
    fun _ => List.intercalate_splitOn '/'
  exact hinverse.injective

/-- A text begins with the segments of another one if it is that text, or goes on behind it with a
    slash. -/
theorem splitOn_prefix_iff : top.splitOn '/' <+: text.splitOn '/' ↔
    text = top ∨ ∃ rest, text = top ++ '/' :: rest := by
  constructor
  · rintro ⟨later, hlater⟩
    by_cases hnil : later = []
    · left
      apply splitOn_slash_injective
      rw [← hlater, hnil, List.append_nil]
    · right
      have hslash : ∀ s ∈ later, '/' ∉ s := by
        intro s hs
        have hmem : s ∈ text.splitOn '/' := hlater ▸ List.mem_append_right _ hs
        exact slash_notMem_of_mem_splitOn hmem
      refine ⟨['/'].intercalate later, ?_⟩
      apply splitOn_slash_injective
      rw [List.splitOn_append_cons_self, List.splitOn_intercalate '/' hslash hnil, hlater]
  · rintro (rfl | ⟨rest, rfl⟩)
    · exact List.prefix_rfl
    · rw [List.splitOn_append_cons_self]
      exact List.prefix_append _ _

/-- A slash at the end of a text is no matter to a shorter text without one. -/
theorem splitOn_prefix_concat_iff (htop : top.getLast? ≠ some '/') :
    top.splitOn '/' <+: (text ++ ['/']).splitOn '/' ↔ top.splitOn '/' <+: text.splitOn '/' := by
  have hsplit : (text ++ ['/']).splitOn '/' = text.splitOn '/' ++ [[]] := by
    rw [List.splitOn_append_cons_self, List.splitOn_nil]
  have hne : top.splitOn '/' ≠ text.splitOn '/' ++ [[]] := by
    intro h
    apply htop
    rw [splitOn_slash_injective (h.trans hsplit.symm), List.getLast?_concat]
  rw [hsplit, List.prefix_concat_iff, or_iff_right hne]

/-! ## Slashes at the end -/

theorem trimEndSlashes_eq (text : List Char) : trimEndSlashes text = text.rdropWhile (· = '/') :=
  rfl

theorem trimEndSlashes_concat_slash (text : List Char) :
    trimEndSlashes (text ++ ['/']) = trimEndSlashes text :=
  List.rdropWhile_concat_pos _ _ _ (decide_eq_true rfl)

theorem trimEndSlashes_slashes (text : List Char) (n : Nat) :
    trimEndSlashes (text ++ List.replicate n '/') = trimEndSlashes text := by
  induction n with
  | zero => rw [List.replicate_zero, List.append_nil]
  | succ n ih => rw [List.replicate_succ', ← List.append_assoc, trimEndSlashes_concat_slash, ih]

theorem getLast?_trimEndSlashes (text : List Char) : (trimEndSlashes text).getLast? ≠ some '/' := by
  intro h
  obtain ⟨hne, hlast⟩ := List.mem_getLast?_eq_getLast h
  exact List.rdropWhile_last_not _ _ hne (decide_eq_true hlast.symm)

theorem splitOn_prefix_trimEndSlashes_iff (htop : top.getLast? ≠ some '/') :
    top.splitOn '/' <+: (trimEndSlashes text).splitOn '/' ↔
      top.splitOn '/' <+: text.splitOn '/' := by
  induction text using List.reverseRecOn with
  | nil => exact Iff.rfl
  | append_singleton text c ih =>
    by_cases hc : c = '/'
    · rw [hc, trimEndSlashes_concat_slash, ih, splitOn_prefix_concat_iff htop]
    · have hkeep : trimEndSlashes (text ++ [c]) = text ++ [c] :=
        List.rdropWhile_concat_neg _ _ _ (by simpa using hc)
      rw [hkeep]

/-! ## Keys under a key -/

/-- A key is under another one if that one has no segment but slashes, or its segments without the
    slashes at its end are the first ones of the key. -/
theorem under_iff_segments (key wanted : String) : under key wanted = true ↔
    wanted.toList.rdropWhile (· = '/') = [] ∨
      (wanted.toList.rdropWhile (· = '/')).splitOn '/' <+: key.toList.splitOn '/' := by
  rw [← trimEndSlashes_eq, splitOn_prefix_iff, ← slash_prefix_iff, under, underChars]
  simp [or_assoc]

example : under "/app/db/" "/app/db//" = true ∧ under "/app/dbx" "/app/db" = false := by decide

theorem under_refl (key : String) : under key key = true := by
  rw [under_iff_segments, ← trimEndSlashes_eq]
  right
  exact (splitOn_prefix_trimEndSlashes_iff (getLast?_trimEndSlashes _)).mp List.prefix_rfl

theorem under_trans {a b c : String} (hab : under a b = true) (hbc : under b c = true) :
    under a c = true := by
  rw [under_iff_segments, ← trimEndSlashes_eq] at *
  obtain hc | hc := hbc
  · exact .inl hc
  · rw [← splitOn_prefix_trimEndSlashes_iff (getLast?_trimEndSlashes _)] at hc
    obtain hb | hb := hab
    · -- The key in the middle is made of slashes, so the upper one is too.
      rw [hb, splitOn_prefix_iff] at hc
      obtain hc | ⟨rest, hc⟩ := hc
      · exact .inl hc.symm
      · exact absurd hc.symm (by simp)
    · exact .inr (hc.trans hb)

/-- Slashes at the end of the upper key do not count. -/
theorem under_slashes (key wanted : String) (n : Nat) :
    under key (wanted ++ String.ofList (List.replicate n '/')) = under key wanted := by
  rw [under, under, underChars, underChars, String.toList_append, String.toList_ofList,
    trimEndSlashes_slashes]

end Steward.Key
