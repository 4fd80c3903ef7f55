import Mathlib.Data.String.Basic
import Mathlib.Tactic.SplitIfs
import Steward.Text.Utf8

/-!
# The order of texts is the order of their bytes

Texts are ordered by their characters. The UTF-8 form of a greater character is greater byte by
byte, already where the two forms first differ, so the order of texts is the order of their bytes.

Results:
* `utf8EncodeChar_append_lt`: greater characters have greater bytes, whatever follows.
* `bytes_lt_iff`: the order of texts is that of their bytes.
-/

namespace Steward.Text

theorem ofNat_lt_iff {a b : Nat} (ha : a < 256) (hb : b < 256) :
    UInt8.ofNat a < UInt8.ofNat b ↔ a < b := by
  rw [UInt8.lt_iff_toNat_lt, UInt8.toNat_ofNat_of_lt' ha, UInt8.toNat_ofNat_of_lt' hb]

theorem ofNat_eq_iff {a b : Nat} (ha : a < 256) (hb : b < 256) :
    UInt8.ofNat a = UInt8.ofNat b ↔ a = b := by
  rw [← UInt8.toNat_inj, UInt8.toNat_ofNat_of_lt' ha, UInt8.toNat_ofNat_of_lt' hb]

/-- Numbers are compared by their digits to the base 64, of which the last three are told apart. -/
theorem digits_lt {v w : Nat} (h : v < w) :
    v / 262144 < w / 262144 ∨ v / 262144 = w / 262144 ∧
      (v / 4096 % 64 < w / 4096 % 64 ∨ v / 4096 % 64 = w / 4096 % 64 ∧
        (v / 64 % 64 < w / 64 % 64 ∨ v / 64 % 64 = w / 64 % 64 ∧ v % 64 < w % 64)) := by
  have hdigits (n : Nat) : ∃ a b c d, b < 64 ∧ c < 64 ∧ d < 64 ∧
      n = ((a * 64 + b) * 64 + c) * 64 + d ∧
      n / 262144 = a ∧ n / 4096 % 64 = b ∧ n / 64 % 64 = c ∧ n % 64 = d :=
    ⟨n / 262144, n / 4096 % 64, n / 64 % 64, n % 64, by omega, by omega, by omega, by omega,
      rfl, rfl, rfl, rfl⟩
  obtain ⟨_, _, _, _, _, _, _, hv, rfl, rfl, rfl, rfl⟩ := hdigits v
  obtain ⟨_, _, _, _, _, _, _, hw, rfl, rfl, rfl, rfl⟩ := hdigits w
  rw [hv, hw] at h
  generalize v / 262144 = v₁, v / 4096 % 64 = v₂, v / 64 % 64 = v₃, v % 64 = v₄ at *
  generalize w / 262144 = w₁, w / 4096 % 64 = w₂, w / 64 % 64 = w₃, w % 64 = w₄ at *
  clear hv hw
  omega

/-- The bytes of a greater character are greater, whatever follows: the first bytes are if it has
    more of them, and else the first in which the two characters differ. -/
theorem utf8EncodeChar_append_lt {c d : Char} (h : c < d) (xs ys : List UInt8) :
    String.utf8EncodeChar c ++ xs < String.utf8EncodeChar d ++ ys := by
  have hlt : c.val.toNat < d.val.toNat := h
  have hdigits := digits_lt hlt
  have hd : d.val.toNat < 0x110000 := by
    obtain h | h := d.valid
    · omega
    · exact h.2
  unfold String.utf8EncodeChar
  generalize c.val.toNat = v at *
  generalize d.val.toNat = w at *
  have hv : v / 262144 % 8 = v / 262144 := by omega
  have hw : w / 262144 % 8 = w / 262144 := by omega
  dsimp only
  split_ifs <;>
    simp (disch := omega) only [List.cons_append, List.nil_append, List.cons_lt_cons_iff,
      ofNat_lt_iff, ofNat_eq_iff] <;> omega

/-! ## Texts -/

theorem bytes_eq (text : String) : bytes text = text.toList.flatMap String.utf8EncodeChar := by
  unfold bytes
  rw [String.toUTF8_eq_toByteArray, ← String.utf8Encode_toList, List.utf8Encode,
    List.data_toByteArray]

theorem flatMap_utf8EncodeChar_lt {xs ys : List Char} (h : xs < ys) :
    xs.flatMap String.utf8EncodeChar < ys.flatMap String.utf8EncodeChar := by
  induction h with
  | @nil d ys =>
    have hne : (d :: ys).flatMap String.utf8EncodeChar ≠ [] := by
      rw [List.flatMap_cons]
      exact List.append_ne_nil_of_left_ne_nil String.utf8EncodeChar_ne_nil _
    obtain ⟨b, bs, hbs⟩ := List.exists_cons_of_ne_nil hne
    rw [hbs]
    exact List.nil_lt_cons b bs
  | cons _ ih => exact List.append_left_lt ih
  | rel h => exact utf8EncodeChar_append_lt h _ _

/-- The order of texts is the order of their bytes. -/
theorem bytes_lt_iff {s t : String} : bytes s < bytes t ↔ s < t := by
  have hmono {s t : String} (h : s < t) : bytes s < bytes t := by
    rw [bytes_eq, bytes_eq]
    exact flatMap_utf8EncodeChar_lt (String.lt_iff_toList_lt.mp h)
  refine ⟨fun h => ?_, hmono⟩
  obtain hst | rfl | hts := lt_trichotomy s t
  · exact hst
  · exact absurd h (List.lt_irrefl _)
  · exact absurd h (List.lt_asymm (hmono hts))

end Steward.Text
