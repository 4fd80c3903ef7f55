import Steward.Event.Basic

/-!
# Counts in words

An event holds counts of 32 bits. A counter of that size stays at the greatest word once it is there.
A count that comes from a wider word is cut down to the greatest word before it is narrowed, so that
none of its bits are lost. A length of time is turned into milliseconds in 128 bits, which is enough
for the longest one.

Results:
* `toNat_reading`: what a counter shows.
* `toNat_narrow`: what is left of a wider word.
* `Duration.toNat_milliseconds`: the milliseconds of a length of time.
-/

namespace Steward

theorem saturate_le_saturate {m n : Nat} (h : m ≤ n) : saturate m ≤ saturate n := by
  rw [saturate, saturate]
  omega

/-! ## Counters -/

/-- The greatest word. -/
def greatestWord : UInt32 := UInt32.ofNat greatestCount

/-- The sum of two words, or the greatest word if it does not fit. Then the sum wraps around, and is
    less than either of them. -/
def addSaturating (a b : UInt32) : UInt32 := if a + b < a then greatestWord else a + b

/-- What a counter shows that was advanced by one as often as that, from zero on. -/
def reading (times : Nat) : UInt32 := Nat.repeat (addSaturating · 1) times 0

theorem toNat_greatestWord : greatestWord.toNat = greatestCount := rfl

theorem toNat_addSaturating (a b : UInt32) :
    (addSaturating a b).toNat = saturate (a.toNat + b.toNat) := by
  have ha : a.toNat < 4294967296 := a.toNat_lt
  have hb : b.toNat < 4294967296 := b.toNat_lt
  have hsum : (a + b).toNat = (a.toNat + b.toNat) % 4294967296 := UInt32.toNat_add a b
  have hgreatest : greatestCount = 4294967295 := rfl
  rw [addSaturating, saturate]
  split
  · next h =>
    rw [UInt32.lt_iff_toNat_lt] at h
    rw [toNat_greatestWord]
    omega
  · next h =>
    rw [UInt32.lt_iff_toNat_lt] at h
    omega

/-- A counter shows how often it was advanced, up to the greatest word. -/
theorem toNat_reading (times : Nat) : (reading times).toNat = saturate times := by
  induction times with
  | zero => rfl
  | succ times ih =>
    change (addSaturating (reading times) 1).toNat = saturate (times + 1)
    rw [toNat_addSaturating, ih]
    simp only [saturate, UInt32.toNat_one, greatestCount, UInt32.size]
    omega

/-! ## Wider words -/

/-- The lowest 32 bits of a word that is cut down to the greatest word first. -/
def narrow {width : Nat} (n : BitVec width) : UInt32 :=
  let greatest := BitVec.ofNat width greatestCount
  ⟨(if n ≤ greatest then n else greatest).setWidth 32⟩

theorem toNat_narrow {width : Nat} (h : 32 ≤ width) (n : BitVec width) :
    (narrow n).toNat = saturate n.toNat := by
  -- the greatest word has a place in the wider one
  have hwide : greatestCount < 2 ^ width :=
    Nat.lt_of_lt_of_le (by decide) (Nat.pow_le_pow_right (by decide) h)
  have hgreatest : (BitVec.ofNat width greatestCount).toNat = greatestCount := by
    rw [BitVec.toNat_ofNat, Nat.mod_eq_of_lt hwide]
  have hcut : (if n ≤ BitVec.ofNat width greatestCount then n
      else BitVec.ofNat width greatestCount).toNat = saturate n.toNat := by
    rw [saturate]
    split
    · next hle =>
      rw [BitVec.le_def, hgreatest] at hle
      exact (Nat.min_eq_left hle).symm
    · next hlt =>
      rw [BitVec.le_def, hgreatest] at hlt
      rw [hgreatest]
      omega
  have hfits : saturate n.toNat < 2 ^ 32 :=
    Nat.lt_of_le_of_lt (Nat.min_le_right ..) (by decide)
  change ((if n ≤ BitVec.ofNat width greatestCount then n
    else BitVec.ofNat width greatestCount).setWidth 32).toNat = _
  rw [BitVec.toNat_setWidth, hcut, Nat.mod_eq_of_lt hfits]

/-! ## Lengths of time -/

/-- A length of time: whole seconds, and the nanoseconds that are left. -/
structure Duration where
  /-- The whole seconds. -/
  seconds : UInt64
  /-- The nanoseconds beside them. -/
  nanoseconds : UInt32
  /-- They do not make up a second. -/
  nanoseconds_lt : nanoseconds < 1000000000 := by decide

namespace Duration

/-- A length of time in nanoseconds. -/
def total (d : Duration) : Nat := d.seconds.toNat * 1000000000 + d.nanoseconds.toNat

/-- The whole milliseconds, in 128 bits. -/
def milliseconds (d : Duration) : BitVec 128 :=
  d.seconds.toBitVec.setWidth 128 * 1000 + (d.nanoseconds / 1000000).toBitVec.setWidth 128

/-- A number below the size of a word of 64 bits is the same in 128 bits. -/
theorem toNat_setWidth_of_lt {width : Nat} {n : BitVec width}
    (h : n.toNat < 18446744073709551616) : (n.setWidth 128).toNat = n.toNat := by
  rw [BitVec.toNat_setWidth]
  exact Nat.mod_eq_of_lt (Nat.lt_trans h (by decide))

/-- Nothing wraps around: the milliseconds of the longest time take up 74 bits. -/
theorem toNat_milliseconds (d : Duration) : d.milliseconds.toNat = d.total / 1000000 := by
  have hseconds : d.seconds.toBitVec.toNat < 18446744073709551616 := d.seconds.toNat_lt
  have hrest : d.nanoseconds.toNat < 1000000000 := UInt32.lt_iff_toNat_lt.mp d.nanoseconds_lt
  have hmilliseconds : (d.nanoseconds / 1000000).toBitVec.toNat = d.nanoseconds.toNat / 1000000 :=
    UInt32.toNat_div ..
  have hthousand : (1000 : BitVec 128).toNat = 1000 := rfl
  rw [milliseconds, BitVec.toNat_add, BitVec.toNat_mul, toNat_setWidth_of_lt hseconds,
    toNat_setWidth_of_lt (by omega), hthousand, hmilliseconds, total]
  change _ = (d.seconds.toBitVec.toNat * 1000000000 + d.nanoseconds.toNat) / 1000000
  omega

end Duration

end Steward
