import Steward.Key.Path

/-!
# Keys below keys

A key lies under another one if it is that key or goes on behind it with a slash. For a key that is
made of segments, each behind a slash, this is what `under` decides.

Results:
* `under_iff`: the keys that are found under a key made of segments.
* `prefix_iff`: a key that begins with the text of another one lies under it or lengthens its last
  segment.
-/

namespace Steward.Key

/-- A lower-case letter or a digit. -/
def IsSegmentChar (c : Char) : Prop := 'a' ≤ c ∧ c ≤ 'z' ∨ '0' ≤ c ∧ c ≤ '9'

instance (c : Char) : Decidable (IsSegmentChar c) := inferInstanceAs (Decidable (_ ∨ _))

/-- A key that is made of segments of lower-case letters and digits, each behind a slash. -/
def IsSegmented (key : String) : Prop :=
  ∃ segments : List (List Char), key.toList = segments.flatMap ('/' :: ·) ∧
    ∀ s ∈ segments, s ≠ [] ∧ ∀ c ∈ s, IsSegmentChar c

/-- A key is another one, or lies below it. -/
def LiesUnder (key wanted : String) : Prop := key = wanted ∨ ∃ rest, key = wanted ++ "/" ++ rest

/-- A key goes on behind the text of another one without a slash. -/
def Lengthens (key wanted : String) : Prop :=
  ∃ c rest, c ≠ '/' ∧ key.toList = wanted.toList ++ c :: rest

variable {key wanted : String}

theorem ne_slash_of_isSegmentChar {c : Char} (h : IsSegmentChar c) : c ≠ '/' := by
  rintro rfl
  exact absurd h (by decide)

/-- A key made of segments is empty, or a slash and a text that does not begin with one. -/
theorem IsSegmented.cases (h : IsSegmented wanted) : wanted.toList = [] ∨
    ∃ c rest, wanted.toList = '/' :: c :: rest ∧ c ≠ '/' ∧
      ∀ d ∈ c :: rest, d = '/' ∨ IsSegmentChar d := by
  obtain ⟨segments, heq, hsegments⟩ := h
  cases segments with
  | nil => exact .inl heq
  | cons s segments =>
    obtain ⟨⟨hnil, hs⟩, hrest⟩ := List.forall_mem_cons.mp hsegments
    cases s with
    | nil => exact absurd rfl hnil
    | cons c s =>
      refine .inr ⟨c, s ++ segments.flatMap ('/' :: ·), by simpa using heq,
        ne_slash_of_isSegmentChar (hs c List.mem_cons_self), ?_⟩
      rw [← List.cons_append]
      refine List.forall_mem_append.mpr ⟨fun d hd => .inr (hs d hd), fun d hd => ?_⟩
      obtain ⟨t, ht, hd⟩ := List.mem_flatMap.mp hd
      rcases List.mem_cons.mp hd with rfl | hd
      · exact .inl rfl
      · exact .inr ((hrest t ht).2 d hd)

theorem trimEndSlashes_concat (text : List Char) {c : Char} (h : c ≠ '/') :
    trimEndSlashes (text ++ [c]) = text ++ [c] := by
  simp [trimEndSlashes, h]

/-- A key made of segments has no slash at its end. -/
theorem IsSegmented.trimEndSlashes_eq (h : IsSegmented wanted) :
    trimEndSlashes wanted.toList = wanted.toList := by
  obtain ⟨segments, heq, hsegments⟩ := h
  rcases List.eq_nil_or_concat segments with rfl | ⟨front, last, rfl⟩
  · rw [heq]
    rfl
  · obtain ⟨hnil, hlast⟩ := hsegments last (by simp)
    obtain ⟨most, c, rfl⟩ := (List.eq_nil_or_concat last).resolve_left hnil
    have hc : c ≠ '/' := ne_slash_of_isSegmentChar (hlast c (by simp))
    have hend : wanted.toList = (front.flatMap ('/' :: ·) ++ '/' :: most) ++ [c] := by simp [heq]
    rw [hend, trimEndSlashes_concat _ hc]

theorem slash_prefix_iff {text top : List Char} :
    top ++ ['/'] <+: text ↔ ∃ rest, text = top ++ '/' :: rest := by
  simp [List.IsPrefix, eq_comm]

theorem exists_below_iff :
    (∃ rest, key = wanted ++ "/" ++ rest) ↔ ∃ rest, key.toList = wanted.toList ++ '/' :: rest := by
  constructor
  · rintro ⟨rest, rfl⟩
    exact ⟨rest.toList, by simp⟩
  · rintro ⟨rest, hrest⟩
    exact ⟨String.ofList rest, String.toList_injective (by simp [hrest])⟩

theorem liesUnder_iff : LiesUnder key wanted ↔
    key.toList = wanted.toList ∨ ∃ rest, key.toList = wanted.toList ++ '/' :: rest := by
  rw [LiesUnder, exists_below_iff, String.toList_inj]

/-- The keys that are found under a key made of segments. -/
theorem under_iff (h : IsSegmented wanted) (hkey : key.toList.head? = some '/') :
    under key wanted = true ↔ LiesUnder key wanted := by
  rw [liesUnder_iff, under, underChars, h.trimEndSlashes_eq, ← slash_prefix_iff]
  by_cases hnil : wanted.toList = []
  · -- everything that begins with a slash is found under the empty key
    obtain ⟨rest, hrest⟩ := List.head?_eq_some_iff.mp hkey
    simp [hnil, hrest]
  · simp [hnil]

/-- A key that begins with the text of another one lies under it or lengthens its last segment. -/
theorem prefix_iff :
    wanted.toList <+: key.toList ↔ LiesUnder key wanted ∨ Lengthens key wanted := by
  rw [liesUnder_iff]
  constructor
  · rintro ⟨rest, hrest⟩
    cases rest with
    | nil => exact .inl (.inl (by simpa using hrest.symm))
    | cons c rest =>
      by_cases hc : c = '/'
      · exact .inl (.inr ⟨rest, by rw [← hrest, hc]⟩)
      · exact .inr ⟨c, rest, hc, hrest.symm⟩
  · rintro ((heq | ⟨rest, heq⟩) | ⟨c, rest, -, heq⟩) <;> simp [heq]

end Steward.Key
