import Steward.Text.Case

/-!
# The case of ASCII texts

In a text of ASCII characters each character has its case mapped on its own.
-/

namespace Steward.Text

variable {text : List Char}

/-- What holds of the first 128 characters holds of all ASCII characters. -/
theorem forall_ascii {P : Char → Prop} (h : ∀ n < 0x80, P (Char.ofNat n)) (c : Char)
    (hc : c.toNat < 0x80) : P c := by
  have hnat := h c.toNat hc
  rwa [Char.ofNat_toNat] at hnat

theorem toUpper_of_ascii (h : ∀ c ∈ text, c.toNat < 0x80) :
    toUpper text = text.map Char.toUpper := by
  induction text with
  | nil => rfl
  | cons c text ih =>
    obtain ⟨hc, htext⟩ := List.forall_mem_cons.mp h
    rw [toUpper, List.flatMap_cons, ← toUpper, ih htext, upperChar, if_pos hc]
    rfl

theorem lowerAfter_of_ascii (before : List Char) (h : ∀ c ∈ text, c.toNat < 0x80) :
    lowerAfter before text = text.map Char.toLower := by
  induction text generalizing before with
  | nil => rfl
  | cons c text ih =>
    obtain ⟨hc, htext⟩ := List.forall_mem_cons.mp h
    have hsigma : c ≠ 'Σ' := by
      rintro rfl
      exact absurd hc (by decide)
    rw [lowerAfter, if_neg hsigma, ih _ htext, lowerChar, if_pos hc]
    rfl

theorem toLower_of_ascii (h : ∀ c ∈ text, c.toNat < 0x80) : toLower text = text.map Char.toLower :=
  lowerAfter_of_ascii [] h

end Steward.Text
