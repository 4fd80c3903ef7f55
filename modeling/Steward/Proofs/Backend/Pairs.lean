import Steward.Backend.Lookup

/-!
# Pairs from a list

When pairs are put together from a list, the last value of a key counts.

Results:
* `getElem?_ofList`: the value of a key is found from the end of the list.
* `getElem?_ofList_eq_some_iff`: a key has the value behind which the list has no other for it.
* `getElem?_filter_eq_some_iff`, `getElem?_ofList_filter`: what is left when only some keys are
  kept.
-/

namespace Steward.Backend.Pairs

variable {xs : List (String × String)} {p : String → Bool} {key text : String}

theorem getElem?_insertMany (t : Pairs) (xs : List (String × String)) (key : String) :
    (t.insertMany xs)[key]? = (xs.reverse.lookup key).or t[key]? := by
  induction xs generalizing t with
  | nil => simp
  | cons x xs ih =>
    obtain ⟨first, value⟩ := x
    rw [Std.ExtTreeMap.insertMany_cons, ih, Std.ExtTreeMap.getElem?_insert, List.reverse_cons,
      List.lookup_append, Option.or_assoc]
    congr 1
    by_cases h : first = key
    · simp [h]
    · have hne : (key == first) = false := beq_eq_false_iff_ne.mpr (Ne.symm h)
      simp [h, List.lookup_cons, hne]

/-- The value of a key is found from the end of the list. -/
theorem getElem?_ofList (xs : List (String × String)) (key : String) :
    (.ofList xs : Pairs)[key]? = xs.reverse.lookup key := by
  rw [Std.ExtTreeMap.ofList_eq_insertMany_empty, getElem?_insertMany]
  simp

/-- A key has the value behind which the list has no other for it. -/
theorem getElem?_ofList_eq_some_iff : (.ofList xs : Pairs)[key]? = some text ↔
    ∃ pre post, xs = pre ++ (key, text) :: post ∧ ∀ x ∈ post, x.1 ≠ key := by
  rw [getElem?_ofList, List.lookup_eq_some_iff]
  constructor
  · rintro ⟨post, pre, heq, hpost⟩
    refine ⟨pre.reverse, post.reverse, by simpa using congrArg List.reverse heq, fun x hx => ?_⟩
    exact (bne_iff_ne.mp (hpost x (List.mem_reverse.mp hx))).symm
  · rintro ⟨pre, post, rfl, hpost⟩
    refine ⟨post.reverse, pre.reverse, by simp, fun x hx => ?_⟩
    exact bne_iff_ne.mpr (hpost x (List.mem_reverse.mp hx)).symm

/-! ## Some of the keys -/

theorem getElem?_filter_eq_some_iff {all : Pairs} :
    (all.filter fun key _ => p key)[key]? = some text ↔ all[key]? = some text ∧ p key = true := by
  rw [Std.ExtTreeMap.getElem?_filter', Option.filter_eq_some_iff]

theorem lookup_filter (xs : List (String × String)) (p : String → Bool) (key : String) :
    (xs.filter fun x => p x.1).lookup key = if p key then xs.lookup key else none := by
  induction xs with
  | nil => simp
  | cons x xs ih =>
    obtain ⟨first, value⟩ := x
    rw [List.filter_cons]
    by_cases hkey : key = first
    · subst hkey
      cases hp : p key <;> simp [hp, ih]
    · have hne : (key == first) = false := beq_eq_false_iff_ne.mpr hkey
      cases p first <;> simp [List.lookup_cons, hne, ih]

/-- It makes no difference whether keys are taken away from the list or from the pairs. -/
theorem getElem?_ofList_filter (xs : List (String × String)) (p : String → Bool) (key : String) :
    (.ofList (xs.filter fun x => p x.1) : Pairs)[key]? =
      if p key then (.ofList xs : Pairs)[key]? else none := by
  rw [getElem?_ofList, getElem?_ofList, ← List.filter_reverse, lookup_filter]

end Steward.Backend.Pairs
