import Mathlib.Data.List.Induction
import Mathlib.Tactic.SplitIfs
import Steward.Proofs.Text.ByteOrder

/-!
# Octets and the texts they stand for

The octets of a text stand for that text. Whatever octets there are, an ASCII character in the text
they stand for is an ASCII octet among them, and the other way round; so the text ends in an ASCII
text exactly if the octets end in the octets of it.

Results:
* `lossy_bytes`: the octets of a text stand for it.
* `suffix_lossy_iff`: the ASCII endings of octets and of the text they stand for.
-/

namespace Steward.Text

namespace Reading

variable {octet : UInt8} {rest octets : Octets} {reading : Reading}

/-! ## One octet -/

section
variable {owed low high value : Nat}

theorem step_last (hlow : low ≤ octet.toNat) (hhigh : octet.toNat ≤ high) :
    (within 0 low high value).step octet =
      ([.ofNat (value * 64 + octet.toNat % 64)], between) :=
  if_pos ⟨hlow, hhigh⟩

theorem step_inner (hlow : low ≤ octet.toNat) (hhigh : octet.toNat ≤ high) :
    (within (owed + 1) low high value).step octet =
      ([], within owed 0x80 0xBF (value * 64 + octet.toNat % 64)) :=
  if_pos ⟨hlow, hhigh⟩

theorem step_of_not (h : ¬(low ≤ octet.toNat ∧ octet.toNat ≤ high)) :
    (within owed low high value).step octet = (replacement :: (first octet).1, (first octet).2) :=
  if_neg h

end

theorem characters_cons (reading : Reading) (octet : UInt8) (rest : Octets) :
    reading.characters (octet :: rest) =
      (reading.step octet).1 ++ (reading.step octet).2.characters rest := by
  cases reading <;> rfl

/-! ## The octets of a character -/

theorem toNat_ofNat {n : Nat} (h : n < 256) : (UInt8.ofNat n).toNat = n :=
  UInt8.toNat_ofNat_of_lt' h

theorem characters_first {complete : List Char} (h : first octet = (complete, reading)) :
    between.characters (octet :: rest) = complete ++ reading.characters rest := by
  rw [characters_cons, step, h]

section
variable {low high value n : Nat} (hlow : low ≤ n % 64 + 128) (hhigh : n % 64 + 128 ≤ high)
include hlow hhigh

theorem characters_last :
    (within 0 low high value).characters (.ofNat (n % 64 + 128) :: rest) =
      .ofNat (value * 64 + n % 64) :: between.characters rest := by
  have hn : (UInt8.ofNat (n % 64 + 128)).toNat = n % 64 + 128 := toNat_ofNat (by omega)
  have hmod : (n % 64 + 128) % 64 = n % 64 := by omega
  rw [characters_cons, step_last (by omega) (by omega), hn, hmod]
  rfl

theorem characters_inner {owed : Nat} :
    (within (owed + 1) low high value).characters (.ofNat (n % 64 + 128) :: rest) =
      (within owed 0x80 0xBF (value * 64 + n % 64)).characters rest := by
  have hn : (UInt8.ofNat (n % 64 + 128)).toNat = n % 64 + 128 := toNat_ofNat (by omega)
  have hmod : (n % 64 + 128) % 64 = n % 64 := by omega
  rw [characters_cons, step_inner (by omega) (by omega), hn, hmod]
  rfl

end

/-- The first octet of a character says how many follow, and bounds the second one so that it fits
    the one of the character. -/
theorem first_two {v : Nat} (h : 0x80 ≤ v) (h' : v ≤ 0x7FF) :
    first (.ofNat (v / 64 % 32 + 192)) = ([], within 0 0x80 0xBF (v / 64)) := by
  have hn : (UInt8.ofNat (v / 64 % 32 + 192)).toNat = v / 64 % 32 + 192 :=
    toNat_ofNat (by omega)
  have hvalue : v / 64 % 32 + 192 - 0xC0 = v / 64 := by omega
  rw [first, hn]
  rw [if_neg (by omega), if_neg (by omega), if_pos (by omega), hvalue]

theorem first_three {v : Nat} (h : 0x800 ≤ v) (h' : v ≤ 0xFFFF) (hvalid : v < 0xD800 ∨ 0xDFFF < v) :
    ∃ low high, first (.ofNat (v / 4096 % 16 + 224)) = ([], within 1 low high (v / 4096)) ∧
      low ≤ v / 64 % 64 + 128 ∧ v / 64 % 64 + 128 ≤ high := by
  have hn : (UInt8.ofNat (v / 4096 % 16 + 224)).toNat = v / 4096 % 16 + 224 :=
    toNat_ofNat (by omega)
  have hvalue : v / 4096 % 16 + 224 - 0xE0 = v / 4096 := by omega
  rw [first, hn]
  rw [if_neg (by omega), if_neg (by omega), if_neg (by omega), hvalue]
  split_ifs with hfirst hlast <;> try omega
  · have hzero : v / 4096 = 0 := by omega
    exact ⟨_, _, by rw [hzero], by omega, by omega⟩
  · have hthirteen : v / 4096 = 0x0D := by omega
    exact ⟨_, _, by rw [hthirteen], by omega, by omega⟩
  · exact ⟨_, _, rfl, by omega, by omega⟩

theorem first_four {v : Nat} (h : 0x10000 ≤ v) (h' : v < 0x110000) :
    ∃ low high, first (.ofNat (v / 262144 % 8 + 240)) = ([], within 2 low high (v / 262144)) ∧
      low ≤ v / 4096 % 64 + 128 ∧ v / 4096 % 64 + 128 ≤ high := by
  have hn : (UInt8.ofNat (v / 262144 % 8 + 240)).toNat = v / 262144 % 8 + 240 :=
    toNat_ofNat (by omega)
  have hvalue : v / 262144 % 8 + 240 - 0xF0 = v / 262144 := by omega
  rw [first, hn]
  rw [if_neg (by omega), if_neg (by omega), if_neg (by omega), if_neg (by omega), if_neg (by omega),
    if_neg (by omega), hvalue]
  split_ifs with hfirst hinner hlast <;> try omega
  · have hzero : v / 262144 = 0 := by omega
    exact ⟨_, _, by rw [hzero], by omega, by omega⟩
  · exact ⟨_, _, rfl, by omega, by omega⟩
  · have hfour : v / 262144 = 4 := by omega
    exact ⟨_, _, by rw [hfour], by omega, by omega⟩

/-- The octets of a character are read as this character, whatever follows. -/
theorem characters_utf8EncodeChar (c : Char) (rest : Octets) :
    between.characters (String.utf8EncodeChar c ++ rest) = c :: between.characters rest := by
  have hc : Char.ofNat c.val.toNat = c := Char.ofNat_toNat c
  have hvalid : c.val.toNat < 0xD800 ∨ 0xDFFF < c.val.toNat ∧ c.val.toNat < 0x110000 := c.valid
  unfold String.utf8EncodeChar
  generalize c.val.toNat = v at *
  dsimp only
  split_ifs with h1 h2 h3
  · have hn : (UInt8.ofNat v).toNat = v := toNat_ofNat (by omega)
    have hfirst : first (.ofNat v) = ([c], between) := by
      rw [first, hn, if_pos (by omega), hc]
    exact characters_first hfirst
  · have hv : v / 64 * 64 + v % 64 = v := by omega
    simp only [List.cons_append, List.nil_append]
    rw [characters_first (first_two (by omega) h2), List.nil_append,
      characters_last (by omega) (by omega), hv, hc]
  · obtain ⟨low, high, hfirst, hlow, hhigh⟩ := first_three (v := v) (by omega) h3 (by omega)
    have hv : (v / 4096 * 64 + v / 64 % 64) * 64 + v % 64 = v := by omega
    simp only [List.cons_append, List.nil_append]
    rw [characters_first hfirst, List.nil_append, characters_inner hlow hhigh,
      characters_last (by omega) (by omega), hv, hc]
  · obtain ⟨low, high, hfirst, hlow, hhigh⟩ := first_four (v := v) (by omega) (by omega)
    have hv : ((v / 262144 * 64 + v / 4096 % 64) * 64 + v / 64 % 64) * 64 + v % 64 = v := by omega
    simp only [List.cons_append, List.nil_append]
    rw [characters_first hfirst, List.nil_append, characters_inner hlow hhigh,
      characters_inner (by omega) (by omega), characters_last (by omega) (by omega), hv, hc]

/-! ## ASCII octets and characters -/

/-- No octet that goes on with the character a reader is within is ASCII, and neither is the character
    once it is complete. -/
inductive IsDue : Reading → Prop where
  | between : IsDue between
  | last {low high value : Nat} (hlow : 0x80 ≤ low)
      (h : ∀ n, low ≤ n → n ≤ high → 0x80 ≤ (Char.ofNat (value * 64 + n % 64)).toNat) :
      IsDue (within 0 low high value)
  | inner {owed low high value : Nat} (hlow : 0x80 ≤ low)
      (h : ∀ n, low ≤ n → n ≤ high → IsDue (within owed 0x80 0xBF (value * 64 + n % 64))) :
      IsDue (within (owed + 1) low high value)

theorem le_toNat_ofNat {n : Nat} (h : 0x80 ≤ n)
    (hvalid : n < 0xD800 ∨ 0xDFFF < n ∧ n < 0x110000) : 0x80 ≤ (Char.ofNat n).toNat := by
  have hn : n.isValidChar := hvalid
  rw [Char.ofNat, dif_pos hn]
  exact h

/-- What a reader makes of an octet that comes first, and where it is behind it. -/
inductive Begins (octet : UInt8) : List Char × Reading → Prop
  /-- It is ASCII. -/
  | ascii (h : octet.toNat < 0x80) : Begins octet ([.ofNat octet.toNat], between)
  /-- It begins no character. -/
  | none : Begins octet ([replacement], between)
  /-- It begins a character of several octets. -/
  | longer {owed low high value : Nat} (h : (within owed low high value).IsDue) :
      Begins octet ([], within owed low high value)

theorem begins_first (octet : UInt8) : Begins octet (first octet) := by
  have hlast (low high value : Nat) (hlow : 0x80 ≤ low)
      (h : ∀ n, low ≤ n → n ≤ high → 0x80 ≤ value * 64 + n % 64 ∧
        (value * 64 + n % 64 < 0xD800 ∨ 0xDFFF < value * 64 + n % 64 ∧
          value * 64 + n % 64 < 0x110000)) : (within 0 low high value).IsDue :=
    .last hlow fun n hn hn' => le_toNat_ofNat (h n hn hn').1 (h n hn hn').2
  unfold first
  dsimp only
  repeat' split
  · exact .ascii ‹_›
  · exact .none
  -- two octets, then three, then four
  · exact .longer (hlast _ _ _ (by omega) fun n _ _ => by omega)
  iterate 3
    exact .longer (.inner (by omega) fun n _ _ => hlast _ _ _ (by omega) fun m _ _ => by omega)
  iterate 3
    exact .longer (.inner (by omega) fun n _ _ => .inner (by omega) fun m _ _ =>
      hlast _ _ _ (by omega) fun k _ _ => by omega)
  · exact .none

theorem Begins.isDue {behind : List Char × Reading} (h : Begins octet behind) : behind.2.IsDue := by
  cases h with
  | ascii | none => exact .between
  | longer h => exact h

theorem IsDue.le_low {owed low high value : Nat} (h : (within owed low high value).IsDue) :
    0x80 ≤ low := by
  cases h <;> assumption

theorem IsDue.step (h : reading.IsDue) (octet : UInt8) : (reading.step octet).2.IsDue := by
  cases reading with
  | between => exact (begins_first octet).isDue
  | within owed low high value =>
    by_cases hbounds : low ≤ octet.toNat ∧ octet.toNat ≤ high
    · cases h with
      | last _ _ =>
        rw [step_last hbounds.1 hbounds.2]
        exact .between
      | inner _ hinner =>
        rw [step_inner hbounds.1 hbounds.2]
        exact hinner _ hbounds.1 hbounds.2
    · rw [step_of_not hbounds]
      exact (begins_first octet).isDue

/-- An ASCII octet is read as a character, whatever stands in front of it. -/
theorem characters_append_ascii (hdue : reading.IsDue) (h : octet.toNat < 0x80) (before : Octets) :
    reading.characters (before ++ octet :: rest) =
      reading.characters before ++ .ofNat octet.toNat :: between.characters rest := by
  have hfirst : first octet = ([.ofNat octet.toNat], between) := by rw [first, if_pos h]
  induction before generalizing reading with
  | nil =>
    cases reading with
    | between => exact characters_first hfirst
    | within owed low high value =>
      have hlow := hdue.le_low
      rw [List.nil_append, characters_cons, step_of_not (by omega), hfirst]
      rfl
  | cons o before ih =>
    rw [List.cons_append, characters_cons, characters_cons, ih (hdue.step o), List.append_assoc]

/-- What is read last is no ASCII character. -/
def EndsBeyondAscii (cs : List Char) : Prop := ∃ front c, cs = front ++ [c] ∧ 0x80 ≤ c.toNat

theorem Begins.endsBeyondAscii {behind : List Char × Reading} (h : Begins octet behind)
    (hoctet : 0x80 ≤ octet.toNat) : EndsBeyondAscii (behind.1 ++ behind.2.characters []) := by
  cases h with
  | ascii hascii => omega
  | none | longer => exact ⟨[], replacement, rfl, by decide⟩

theorem EndsBeyondAscii.append {cs : List Char} (h : EndsBeyondAscii cs) (front : List Char) :
    EndsBeyondAscii (front ++ cs) := by
  obtain ⟨inner, c, rfl, hc⟩ := h
  exact ⟨front ++ inner, c, (List.append_assoc ..).symm, hc⟩

/-- If the last octet is not ASCII, neither is the last character. -/
theorem endsBeyondAscii_of_le (hdue : reading.IsDue) (h : 0x80 ≤ octet.toNat) (before : Octets) :
    EndsBeyondAscii (reading.characters (before ++ [octet])) := by
  induction before generalizing reading with
  | nil =>
    rw [List.nil_append, characters_cons]
    cases reading with
    | between => exact (begins_first octet).endsBeyondAscii h
    | within owed low high value =>
      by_cases hbounds : low ≤ octet.toNat ∧ octet.toNat ≤ high
      · cases hdue with
        | last _ hbeyond =>
          rw [step_last hbounds.1 hbounds.2]
          exact ⟨[], _, rfl, hbeyond _ hbounds.1 hbounds.2⟩
        | inner _ _ =>
          rw [step_inner hbounds.1 hbounds.2]
          exact ⟨[], replacement, rfl, by decide⟩
      · rw [step_of_not hbounds]
        exact ((begins_first octet).endsBeyondAscii h).append [replacement]
  | cons o before ih =>
    rw [List.cons_append, characters_cons]
    exact (ih (hdue.step o)).append _

theorem characters_eq_concat_iff (hdue : reading.IsDue) {cs : List Char} {c : Char}
    (hc : c.toNat < 0x80) : reading.characters octets = cs ++ [c] ↔
      ∃ before, octets = before ++ [.ofNat c.toNat] ∧ reading.characters before = cs := by
  have hoctet : (UInt8.ofNat c.toNat).toNat = c.toNat := toNat_ofNat (by omega)
  have hbeyond {ds : List Char} (h : EndsBeyondAscii ds) : ds ≠ cs ++ [c] := by
    rintro rfl
    obtain ⟨front, c', heq, hc'⟩ := h
    obtain ⟨-, hlast⟩ := List.append_inj' heq rfl
    obtain rfl := List.singleton_inj.mp hlast
    omega
  constructor
  · intro h
    obtain rfl | ⟨before, octet, rfl⟩ := List.eq_nil_or_concat' octets
    · cases reading with
      | between => exact absurd h (by simp [characters])
      | within => exact absurd h (hbeyond ⟨[], replacement, rfl, by decide⟩)
    · by_cases hlt : octet.toNat < 0x80
      · rw [characters_append_ascii hdue hlt] at h
        obtain ⟨hcs, hlast⟩ := List.append_inj' h rfl
        have hchar : Char.ofNat octet.toNat = c := List.singleton_inj.mp hlast
        have hvalid : octet.toNat.isValidChar := .inl (by omega)
        have hback : (Char.ofNat octet.toNat).toNat = octet.toNat := by
          rw [Char.ofNat, dif_pos hvalid]
          rfl
        rw [← hchar, hback, UInt8.ofNat_toNat]
        exact ⟨before, rfl, hcs⟩
      · exact absurd h (hbeyond (endsBeyondAscii_of_le hdue (by omega) before))
  · rintro ⟨before, rfl, rfl⟩
    rw [characters_append_ascii hdue (by omega), hoctet, Char.ofNat_toNat]
    rfl

/-- ASCII endings of octets and of what is read. -/
theorem suffix_characters_iff (hdue : reading.IsDue) (ending : List Char)
    (h : ∀ c ∈ ending, c.toNat < 0x80) : ending <:+ reading.characters octets ↔
      (ending.map fun c => UInt8.ofNat c.toNat) <:+ octets := by
  induction ending using List.reverseRecOn generalizing octets with
  | nil => simp
  | append_singleton ending c ih =>
    have hc : c.toNat < 0x80 := h c (by simp)
    have hih {before : Octets} := @ih before fun d hd => h d (by simp [hd])
    rw [List.map_append, List.map_singleton]
    constructor
    · rintro ⟨front, hfront⟩
      rw [← List.append_assoc, eq_comm, characters_eq_concat_iff hdue hc] at hfront
      obtain ⟨before, rfl, hbefore⟩ := hfront
      obtain ⟨front', hfront'⟩ := hih.mp ⟨front, hbefore.symm⟩
      exact ⟨front', by rw [← hfront', List.append_assoc]⟩
    · rintro ⟨front, rfl⟩
      rw [← List.append_assoc]
      obtain ⟨front', hfront'⟩ := hih.mpr ⟨front, rfl⟩
      refine ⟨front', ?_⟩
      rw [← List.append_assoc, hfront', eq_comm, characters_eq_concat_iff hdue hc]
      exact ⟨_, rfl, rfl⟩

end Reading

/-- Octets that are the form of a text. -/
def IsText (octets : Octets) : Prop := ∃ text, octets = bytes text

/-- The octets of a text stand for it. -/
@[simp] theorem lossy_bytes (text : String) : lossy (bytes text) = text := by
  have hchars (cs : List Char) :
      Reading.between.characters (cs.flatMap String.utf8EncodeChar) = cs := by
    induction cs with
    | nil => rfl
    | cons c cs ih => rw [List.flatMap_cons, Reading.characters_utf8EncodeChar, ih]
  rw [lossy, bytes_eq, hchars, String.ofList_toList]

theorem bytes_of_ascii {text : String} (h : ∀ c ∈ text.toList, c.toNat < 0x80) :
    bytes text = text.toList.map fun c => UInt8.ofNat c.toNat := by
  rw [bytes_eq, List.map_eq_flatMap]
  refine List.flatMap_congr fun c hc => ?_
  have hlt : c.val.toNat < 0x80 := h c hc
  unfold String.utf8EncodeChar
  dsimp only
  rw [if_pos (by omega)]
  rfl

/-- Octets end in the octets of an ASCII text exactly if the text they stand for ends in it. -/
theorem suffix_lossy_iff {ending : String} (h : ∀ c ∈ ending.toList, c.toNat < 0x80)
    (octets : Octets) : ending.toList <:+ (lossy octets).toList ↔ bytes ending <:+ octets := by
  rw [lossy, String.toList_ofList, Reading.suffix_characters_iff .between _ h, bytes_of_ascii h]

end Steward.Text
