import Mathlib.Algebra.Group.Nat.Defs
import Mathlib.Data.List.Basic
import Mathlib.Data.List.Induction
import Steward.Proofs.Text.AsciiCase
import Steward.Text.Base64

/-!
# Octets in base64

Octets are written three at a time, as the four digits of one number to the base 64. What is left
over at the end is filled up with zero bits to whole digits, and with padding to four characters. A
text is read exactly if it is what some octets are written as.

Results:
* `value?_eq_some_iff`, `number?_eq_some_iff`: digits and numbers are read as they are written.
* `decode?_eq_some_iff`: a text is read as the octets that it is the written form of.
-/

namespace Steward

namespace Octets

/-! ## Octets as digits to the base 256 -/

theorem length_bigEndian (count n : Nat) : (bigEndian count n).length = count := by
  induction count generalizing n with
  | zero => rfl
  | succ count ih => rw [bigEndian, List.length_append, ih, List.length_singleton]

theorem ofBigEndian_concat (octets : Octets) (o : UInt8) :
    ofBigEndian (octets ++ [o]) = ofBigEndian octets * 256 + o.toNat := by
  rw [ofBigEndian, List.foldl_append]
  rfl

theorem ofBigEndian_lt (octets : Octets) : ofBigEndian octets < 256 ^ octets.length := by
  induction octets using List.reverseRecOn with
  | nil => decide
  | append_singleton octets o ih =>
    have ho : o.toNat < 256 := o.toNat_lt_size
    rw [ofBigEndian_concat, List.length_append, List.length_singleton, Nat.pow_succ]
    omega

theorem bigEndian_ofBigEndian (octets : Octets) :
    bigEndian octets.length (ofBigEndian octets) = octets := by
  induction octets using List.reverseRecOn with
  | nil => rfl
  | append_singleton octets o ih =>
    have ho : o.toNat < 256 := o.toNat_lt_size
    have hfront : (ofBigEndian octets * 256 + o.toNat) / 256 = ofBigEndian octets := by omega
    have hlast : UInt8.ofNat (ofBigEndian octets * 256 + o.toNat) = o := by
      rw [← UInt8.toNat_inj, UInt8.toNat_ofNat']
      omega
    rw [ofBigEndian_concat, List.length_append, List.length_singleton, bigEndian, hfront, ih, hlast]

theorem ofBigEndian_bigEndian {count n : Nat} (h : n < 256 ^ count) :
    ofBigEndian (bigEndian count n) = n := by
  induction count generalizing n with
  | zero =>
    obtain rfl : n = 0 := Nat.lt_one_iff.mp h
    rfl
  | succ count ih =>
    rw [Nat.pow_succ] at h
    rw [bigEndian, ofBigEndian_concat, ih (by omega), UInt8.toNat_ofNat']
    omega

end Octets

namespace Text.Base64

variable {c : Char} {v n : Nat} {cs : List Char} {octets : Octets}

/-! ## Characters as digits to the base 64 -/

/-- The characters of the values in their order. -/
def alphabet : List Char :=
  "ABCDEFGHIJKLMNOPQRSTUVWXYZabcdefghijklmnopqrstuvwxyz0123456789+/".toList

/-- The character of a value below 64. -/
def character (v : Nat) : Char := alphabet.getD v padding

/-- The characters of the lowest `count` digits of a number to the base 64, the highest first. -/
def characters : (count : Nat) → Nat → List Char
  | 0, _ => []
  | count + 1, n => characters count (n / 64) ++ [character (n % 64)]

theorem toNat_lt_of_value? (h : value? c = some v) : c.toNat < 0x80 := by
  have hle {d : Char} (hc : c ≤ d) (hd : d.toNat < 0x80) : c.toNat < 0x80 :=
    Nat.lt_of_le_of_lt (Char.le_def.mp hc) hd
  unfold value? at h
  split at h
  · exact hle (And.right ‹_›) (by decide)
  · split at h
    · exact hle (And.right ‹_›) (by decide)
    · split at h
      · exact hle (And.right ‹_›) (by decide)
      · split at h
        · subst c
          decide
        · split at h
          · subst c
            decide
          · cases h

/-- A value is read from the character that it is written as. -/
theorem value?_eq_some_iff : value? c = some v ↔ v < 64 ∧ c = character v := by
  constructor
  · intro h
    exact forall_ascii (P := fun c => ∀ v ∈ value? c, v < 64 ∧ c = character v)
      (by decide +kernel) c (toNat_lt_of_value? h) v h
  · rintro ⟨hv, rfl⟩
    have hall : ∀ v < 64, value? (character v) = some v := by decide +kernel
    exact hall v hv

theorem ne_padding_of_value? (h : value? c = some v) : c ≠ padding := by
  rintro rfl
  cases h

/-! ## Numbers to the base 64 -/

theorem length_characters (count n : Nat) : (characters count n).length = count := by
  induction count generalizing n with
  | zero => rfl
  | succ count ih => rw [characters, List.length_append, ih, List.length_singleton]

theorem number?_concat : number? (cs ++ [c]) = some n ↔
    ∃ m v, number? cs = some m ∧ value? c = some v ∧ m * 64 + v = n := by
  simp only [number?, List.mapM_append, Option.map_eq_some_iff, Option.bind_eq_bind,
    Option.bind_eq_some_iff, List.mapM_cons, List.mapM_nil, Option.pure_def, Option.some_inj]
  constructor
  · rintro ⟨_, ⟨vs, hvs, _, ⟨v, hv, _, rfl, rfl⟩, rfl⟩, rfl⟩
    exact ⟨_, v, ⟨vs, hvs, rfl⟩, hv, by rw [List.foldl_append]; rfl⟩
  · rintro ⟨_, v, ⟨vs, hvs, rfl⟩, hv, rfl⟩
    exact ⟨_, ⟨vs, hvs, _, ⟨v, hv, _, rfl, rfl⟩, rfl⟩, by rw [List.foldl_append]; rfl⟩

/-- A number is read from the characters of its digits. -/
theorem number?_eq_some_iff :
    number? cs = some n ↔ n < 64 ^ cs.length ∧ cs = characters cs.length n := by
  induction cs using List.reverseRecOn generalizing n with
  | nil =>
    have hnil : number? [] = some 0 := rfl
    rw [hnil, Option.some_inj, List.length_nil, Nat.pow_zero, Nat.lt_one_iff]
    exact ⟨fun h => ⟨h.symm, rfl⟩, fun h => h.1.symm⟩
  | append_singleton cs c ih =>
    rw [number?_concat, List.length_append, List.length_singleton, characters, Nat.pow_succ]
    constructor
    · rintro ⟨m, v, hm, hv, rfl⟩
      obtain ⟨hm, hcs⟩ := ih.mp hm
      obtain ⟨hv, hc⟩ := value?_eq_some_iff.mp hv
      have hfront : (m * 64 + v) / 64 = m := by omega
      have hlast : (m * 64 + v) % 64 = v := by omega
      rw [hfront, hlast, ← hcs, ← hc]
      exact ⟨by omega, rfl⟩
    · rintro ⟨hn, hcs⟩
      obtain ⟨hcs, hc⟩ := List.append_inj' hcs rfl
      refine ⟨n / 64, n % 64, ih.mpr ⟨by omega, hcs⟩,
        value?_eq_some_iff.mpr ⟨Nat.mod_lt n (by decide), List.singleton_inj.mp hc⟩, by omega⟩

theorem padding_notMem_of_number? (h : number? cs = some n) : padding ∉ cs := by
  induction cs using List.reverseRecOn generalizing n with
  | nil => exact List.not_mem_nil
  | append_singleton cs c ih =>
    obtain ⟨m, v, hm, hv, -⟩ := number?_concat.mp h
    rw [List.mem_append, List.mem_singleton, not_or]
    exact ⟨ih hm, (ne_padding_of_value? hv).symm⟩

/-! ## Octets written as characters -/

/-- The characters of some octets, of which the last has `unused` zero bits at its end. -/
def group (unused : Nat) (octets : Octets) (count : Nat) : List Char :=
  characters count (Octets.ofBigEndian octets <<< unused)

/-- The written form of octets. -/
def encode : Octets → List Char
  | [] => []
  | [o] => group 4 [o] 2 ++ [padding, padding]
  | [o, p] => group 2 [o, p] 3 ++ [padding]
  | o :: p :: q :: rest => group 0 [o, p, q] 4 ++ encode rest

/-- Octets are read from the characters that they are written as. -/
theorem filled?_eq_some_iff {count unused : Nat} (digits : Nat) (hlength : cs.length = digits)
    (hbits : 8 * count + unused = 6 * digits) :
    (number? cs).bind (filled? count unused) = some octets ↔
      octets.length = count ∧ cs = group unused octets digits := by
  subst hlength
  have hpow : 256 ^ count * 2 ^ unused = 64 ^ cs.length := by
    have h256 : 256 = 2 ^ 8 := rfl
    have h64 : 64 = 2 ^ 6 := rfl
    rw [h256, h64, ← Nat.pow_mul, ← Nat.pow_mul, ← Nat.pow_add, hbits]
  have hpos : 0 < 2 ^ unused := Nat.two_pow_pos unused
  simp only [Option.bind_eq_some_iff, number?_eq_some_iff, filled?, group,
    Nat.shiftRight_eq_div_pow, Nat.shiftLeft_eq, Nat.one_mul]
  constructor
  · rintro ⟨n, ⟨hn, hcs⟩, hfilled⟩
    split at hfilled
    · rename_i hzero
      obtain rfl := Option.some.inj hfilled
      have hlt : n / 2 ^ unused < 256 ^ count := by
        rw [Nat.div_lt_iff_lt_mul hpos, hpow]
        exact hn
      have hback : n / 2 ^ unused * 2 ^ unused = n :=
        Nat.div_mul_cancel (Nat.dvd_of_mod_eq_zero hzero)
      rw [Octets.length_bigEndian, Octets.ofBigEndian_bigEndian hlt, hback]
      exact ⟨rfl, hcs⟩
    · cases hfilled
  · rintro ⟨rfl, hcs⟩
    refine ⟨Octets.ofBigEndian octets * 2 ^ unused, ⟨?_, hcs⟩, ?_⟩
    · rw [← hpow]
      exact Nat.mul_lt_mul_of_pos_right (Octets.ofBigEndian_lt octets) hpos
    · rw [if_pos (Nat.mul_mod_left _ _), Nat.mul_div_cancel _ hpos, Octets.bigEndian_ofBigEndian]

theorem length_group (unused : Nat) (octets : Octets) (count : Nat) :
    (group unused octets count).length = count :=
  length_characters count _

theorem ne_padding_of_mem_group {count unused : Nat} (h : c ∈ group unused octets count)
    (hbits : 8 * octets.length + unused = 6 * count) : c ≠ padding := by
  rintro rfl
  obtain ⟨n, hn, -⟩ := Option.bind_eq_some_iff.mp
    ((filled?_eq_some_iff count (length_group unused octets count) hbits).mpr ⟨rfl, rfl⟩)
  exact padding_notMem_of_number? hn h

theorem filled?_zero (count n : Nat) : filled? count 0 n = some (Octets.bigEndian count n) :=
  if_pos (Nat.mod_one n)

theorem encode_of_last? {a b c d : Char} (h : last? a b c d = some octets) :
    [a, b, c, d] = encode octets := by
  unfold last? at h
  split at h
  · split at h
    · subst c d
      obtain ⟨hlength, hgroup⟩ := (filled?_eq_some_iff 2 rfl rfl).mp h
      obtain ⟨o, rfl⟩ := List.length_eq_one_iff.mp hlength
      rw [encode, ← hgroup]
      rfl
    · subst d
      obtain ⟨hlength, hgroup⟩ := (filled?_eq_some_iff 3 rfl rfl).mp h
      obtain ⟨o, p, rfl⟩ := List.length_eq_two.mp hlength
      rw [encode, ← hgroup]
      rfl
  · obtain ⟨hlength, hgroup⟩ := (filled?_eq_some_iff 4 rfl rfl).mp h
    obtain ⟨o, p, q, rfl⟩ := List.length_eq_three.mp hlength
    rw [encode, ← hgroup]
    rfl

theorem encode_of_decode? (h : decode? cs = some octets) : cs = encode octets := by
  fun_induction decode? cs generalizing octets with
  | case1 =>
    obtain rfl := Option.some.inj h
    rfl
  | case2 a b c d => exact encode_of_last? h
  | case3 a b c d rest _ ih =>
    obtain ⟨n, hn, h⟩ := Option.bind_eq_some_iff.mp h
    obtain ⟨back, hback, rfl⟩ := Option.map_eq_some_iff.mp h
    have hread : (number? [a, b, c, d]).bind (filled? 3 0) = some (Octets.bigEndian 3 n) := by
      rw [hn, Option.bind_some, filled?_zero]
    obtain ⟨hlength, hgroup⟩ := (filled?_eq_some_iff 4 rfl rfl).mp hread
    obtain ⟨o, p, q, hfront⟩ := List.length_eq_three.mp hlength
    rw [hfront] at hgroup ⊢
    rw [List.cons_append, List.cons_append, List.singleton_append, encode, ← ih hback, ← hgroup]
    rfl
  | case4 => cases h

/-- Four characters without padding are read as three octets, whether others follow or not. -/
theorem decode?_four {a b c d : Char} (h : d ≠ padding) (rest : List Char) :
    decode? (a :: b :: c :: d :: rest) =
      (number? [a, b, c, d]).bind fun n => (decode? rest).map (Octets.bigEndian 3 n ++ ·) := by
  cases rest with
  | nil =>
    show last? a b c d = _
    simp only [last?, if_neg h, decode?, Option.map_some, List.append_nil, ← filled?_zero]
  | cons e rest => rfl

theorem decode?_encode (octets : Octets) : decode? (encode octets) = some octets := by
  fun_induction encode octets with
  | case1 => rfl
  | case2 o =>
    obtain ⟨a, b, hgroup⟩ := List.length_eq_two.mp (length_group 4 [o] 2)
    rw [hgroup]
    exact (filled?_eq_some_iff 2 rfl rfl).mpr ⟨rfl, hgroup.symm⟩
  | case3 o p =>
    obtain ⟨a, b, c, hgroup⟩ := List.length_eq_three.mp (length_group 2 [o, p] 3)
    have hmem : c ∈ group 2 [o, p] 3 := by simp [hgroup]
    have hread : (number? [a, b, c]).bind (filled? 2 2) = some [o, p] :=
      (filled?_eq_some_iff 3 rfl rfl).mpr ⟨rfl, hgroup.symm⟩
    rw [hgroup]
    show last? a b c padding = some [o, p]
    rw [last?, if_pos rfl, if_neg (ne_padding_of_mem_group hmem rfl), hread]
  | case4 o p q rest ih =>
    obtain ⟨a, b, c, d, hgroup⟩ := List.length_eq_four.mp (length_group 0 [o, p, q] 4)
    have hmem : d ∈ group 0 [o, p, q] 4 := by simp [hgroup]
    have hread : (number? [a, b, c, d]).bind (filled? 3 0) = some [o, p, q] :=
      (filled?_eq_some_iff 4 rfl rfl).mpr ⟨rfl, hgroup.symm⟩
    obtain ⟨n, hn, hfilled⟩ := Option.bind_eq_some_iff.mp hread
    rw [filled?_zero, Option.some_inj] at hfilled
    rw [hgroup]
    show decode? (a :: b :: c :: d :: encode rest) = some ([o, p, q] ++ rest)
    rw [decode?_four (ne_padding_of_mem_group hmem rfl), hn, Option.bind_some, ih,
      Option.map_some, hfilled]

/-- A text is read as the octets that it is the written form of. -/
theorem decode?_eq_some_iff : decode? cs = some octets ↔ cs = encode octets :=
  ⟨encode_of_decode?, fun h => h ▸ decode?_encode octets⟩

end Text.Base64

end Steward
