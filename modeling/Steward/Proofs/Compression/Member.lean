import Steward.Compression.Gzip

/-!
# What a member consists of

A member is a header, a deflated stream and a trailer. The header names the method and the flags; the
flags say which further fields it has. The trailer holds the remainder and the length of the contents,
with the lowest octet first.

Results:
* `skipHeader?_eq_some_iff`: a header is skipped exactly if it is well formed.
* `isTrailerOf_iff`: what a trailer consists of.
* `contents?_eq_some_iff`: contents are read exactly from a member that has them.
-/

namespace Steward.Compression.Gzip

variable {isThere : Bool} {octets rest front trailer contents : Octets}

/-! ## Fields of a header -/

/-- An extra field, if there is one: its length in two octets, and so many octets. -/
def IsExtra (isThere : Bool) (field : Octets) : Prop :=
  if isThere then ∃ low high data,
    field = low :: high :: data ∧ data.length = Octets.ofLittleEndian [low, high]
  else field = []

/-- A text that ends with its first zero, if there is one. -/
def IsText (isThere : Bool) (field : Octets) : Prop :=
  if isThere then ∃ text, field = text ++ [0] ∧ 0 ∉ text ∧ text.length ≤ longestText
  else field = []

/-- The check of what stands in front of it, if there is one. -/
def IsCheck (isThere : Bool) (front field : Octets) : Prop :=
  if isThere then ∃ low high,
    field = [low, high] ∧ Octets.ofLittleEndian [low, high] = (Digest.crc32 front).toNat % 65536
  else field = []

theorem skipExtra?_eq_some_iff : skipExtra? isThere octets = some rest ↔
    ∃ field, octets = field ++ rest ∧ IsExtra isThere field := by
  cases isThere with
  | false => simp [skipExtra?, IsExtra]
  | true =>
    simp only [skipExtra?, IsExtra, if_pos]
    constructor
    · intro h
      split at h
      · rename_i low high data
        split at h
        · cases h
        · rename_i hlength
          cases h
          refine ⟨low :: high :: data.take (Octets.ofLittleEndian [low, high]), ?_, low, high, _,
            rfl, ?_⟩
          · rw [List.cons_append, List.cons_append, List.take_append_drop]
          · exact List.length_take_of_le (Nat.le_of_not_lt hlength)
      · cases h
    · rintro ⟨field, rfl, low, high, data, rfl, hlength⟩
      simp [← hlength]

theorem skipText?_eq_some_iff : skipText? isThere octets = some rest ↔
    ∃ field, octets = field ++ rest ∧ IsText isThere field := by
  cases isThere with
  | false => simp [skipText?, IsText]
  | true =>
    simp only [skipText?, IsText, if_pos]
    constructor
    · intro h
      split at h
      · rename_i zero behind hdrop
        split at h
        · cases h
        · rename_i hlength
          cases h
          have hsplit := List.takeWhile_append_dropWhile (p := (· != 0)) (l := octets)
          have hzero : zero = 0 := by
            have hhead := List.head?_dropWhile_not (· != 0) octets
            rw [hdrop] at hhead
            simpa using hhead
          rw [hdrop, hzero] at hsplit
          refine ⟨octets.takeWhile (· != 0) ++ [0], ?_, _, rfl, ?_, Nat.le_of_not_lt hlength⟩
          · rw [List.append_assoc, List.singleton_append, hsplit]
          · intro hmem
            have hne := List.all_eq_true.mp List.all_takeWhile _ hmem
            exact absurd hne (by decide)
      · cases h
    · rintro ⟨field, rfl, text, rfl, hzero, hlength⟩
      have hne : ∀ o ∈ text, (o != 0) = true := fun o ho => bne_iff_ne.mpr fun h => hzero (h ▸ ho)
      rw [List.append_assoc, List.takeWhile_append_of_pos hne, List.dropWhile_append_of_pos hne]
      simp [Nat.not_lt.mpr hlength]

theorem skipCheck?_eq_some_iff : skipCheck? isThere front octets = some rest ↔
    ∃ field, octets = field ++ rest ∧ IsCheck isThere front field := by
  cases isThere with
  | false => simp [skipCheck?, IsCheck]
  | true =>
    simp only [skipCheck?, IsCheck, if_pos]
    constructor
    · intro h
      split at h
      · rename_i low high behind
        split at h
        · rename_i hcheck
          cases h
          exact ⟨[low, high], rfl, low, high, rfl, hcheck⟩
        · cases h
      · cases h
    · rintro ⟨field, rfl, low, high, rfl, hcheck⟩
      simp [hcheck]

/-! ## Headers -/

/-- A header: the sign of a member, the method, the flags, a time, two more octets, and the fields
    that the flags announce. The check covers all that stands in front of it. -/
inductive IsHeader : Octets → Prop
  | intro {flags t u v w level system : UInt8} {extra name comment check : Octets}
      (hflags : flags < 32) (hextra : IsExtra (hasFlag flags 2) extra)
      (hname : IsText (hasFlag flags 3) name) (hcomment : IsText (hasFlag flags 4) comment)
      (hcheck : IsCheck (hasFlag flags 1)
        (0x1F :: 0x8B :: 8 :: flags :: t :: u :: v :: w :: level :: system ::
          (extra ++ name ++ comment)) check) :
      IsHeader (0x1F :: 0x8B :: 8 :: flags :: t :: u :: v :: w :: level :: system ::
        (extra ++ name ++ comment ++ check))

/-- What remains in front when as much is taken away as stands behind. -/
theorem take_length_sub (front rest : Octets) :
    (front ++ rest).take ((front ++ rest).length - rest.length) = front := by
  rw [List.length_append, Nat.add_sub_cancel, List.take_left]

/-- A header is skipped exactly if it is well formed. -/
theorem skipHeader?_eq_some_iff : skipHeader? octets = some rest ↔
    ∃ header, octets = header ++ rest ∧ IsHeader header := by
  constructor
  · intro h
    unfold skipHeader? at h
    split at h
    · rename_i flags t u v w level system behind
      split at h
      · cases h
      · rename_i hflags
        obtain ⟨afterExtra, hskipExtra, h⟩ := Option.bind_eq_some_iff.mp h
        obtain ⟨afterName, hskipName, h⟩ := Option.bind_eq_some_iff.mp h
        obtain ⟨afterComment, hskipComment, h⟩ := Option.bind_eq_some_iff.mp h
        obtain ⟨extra, rfl, hextra⟩ := skipExtra?_eq_some_iff.mp hskipExtra
        obtain ⟨name, rfl, hname⟩ := skipText?_eq_some_iff.mp hskipName
        obtain ⟨comment, rfl, hcomment⟩ := skipText?_eq_some_iff.mp hskipComment
        obtain ⟨check, rfl, hcheck⟩ := skipCheck?_eq_some_iff.mp h
        have hfront : 0x1F :: 0x8B :: 8 :: flags :: t :: u :: v :: w :: level :: system ::
            (extra ++ (name ++ (comment ++ (check ++ rest)))) =
            0x1F :: 0x8B :: 8 :: flags :: t :: u :: v :: w :: level :: system ::
              (extra ++ name ++ comment) ++ (check ++ rest) := by
          simp only [List.cons_append, List.append_assoc]
        rw [hfront, take_length_sub] at hcheck
        refine ⟨_, ?_, .intro (UInt8.not_le.mp hflags) hextra hname hcomment hcheck⟩
        simp only [List.cons_append, List.append_assoc]
    · cases h
  · rintro ⟨header, rfl, ⟨hflags, hextra, hname, hcomment, hcheck⟩⟩
    rename_i flags t u v w level system extra name comment check
    have hskipExtra := skipExtra?_eq_some_iff.mpr
      ⟨extra, Eq.refl (extra ++ (name ++ (comment ++ (check ++ rest)))), hextra⟩
    have hskipName := skipText?_eq_some_iff.mpr
      ⟨name, Eq.refl (name ++ (comment ++ (check ++ rest))), hname⟩
    have hskipComment := skipText?_eq_some_iff.mpr
      ⟨comment, Eq.refl (comment ++ (check ++ rest)), hcomment⟩
    have hskipCheck := skipCheck?_eq_some_iff.mpr ⟨check, Eq.refl (check ++ rest), hcheck⟩
    have hfront := take_length_sub
      (0x1F :: 0x8B :: 8 :: flags :: t :: u :: v :: w :: level :: system ::
        (extra ++ name ++ comment)) (check ++ rest)
    simp only [List.cons_append, List.append_assoc] at hskipCheck hfront ⊢
    simp only [skipHeader?, UInt8.not_le.mpr hflags, if_false, hskipExtra, hskipName,
      hskipComment, Option.bind_eq_bind, Option.bind_some, hfront, hskipCheck]

/-! ## Trailers -/

/-- A trailer: the remainder and the length of contents, in four octets each. -/
inductive IsTrailer (contents : Octets) : Octets → Prop
  | intro {checksum size : Octets} (hchecksum : checksum.length = 4) (hsize : size.length = 4)
      (hsum : Octets.ofLittleEndian checksum = (Digest.crc32 contents).toNat)
      (hlength : Octets.ofLittleEndian size = contents.length % UInt32.size) :
      IsTrailer contents (checksum ++ size)

theorem isTrailerOf_iff : isTrailerOf octets contents = true ↔
    ∃ trailer rest, octets = trailer ++ rest ∧ IsTrailer contents trailer := by
  simp only [isTrailerOf, Bool.and_eq_true, decide_eq_true_eq]
  constructor
  · rintro ⟨⟨hlong, hsum⟩, hlength⟩
    refine ⟨octets.take 4 ++ (octets.drop 4).take 4, octets.drop 8, ?_, .intro ?_ ?_ hsum hlength⟩
    · rw [← List.take_add, List.take_append_drop]
    · exact List.length_take_of_le (by omega)
    · exact List.length_take_of_le (by rw [List.length_drop]; omega)
  · rintro ⟨trailer, rest, rfl, ⟨hchecksum, hsize, hsum, hlength⟩⟩
    rename_i checksum size
    have htake : (checksum ++ size ++ rest).take 4 = checksum := by
      rw [List.append_assoc, ← hchecksum, List.take_left]
    have hdrop : ((checksum ++ size ++ rest).drop 4).take 4 = size := by
      rw [List.append_assoc, ← hchecksum, List.drop_left, hchecksum, ← hsize, List.take_left]
    have hlong : 8 ≤ (checksum ++ size ++ rest).length := by
      simp only [List.length_append]
      omega
    rw [htake, hdrop]
    exact ⟨⟨hlong, hsum⟩, hlength⟩

/-! ## Members -/

/-- Some octets begin with a member that has some contents: a header, a stream that ends, and behind
    its last octet a trailer for what the stream holds. -/
def BeginsWithMember (octets contents : Octets) : Prop :=
  ∃ header stream left trailer rest, octets = header ++ stream ∧ IsHeader header ∧
    (Inflate.inflate stream).output.toList = contents ∧ (Inflate.inflate stream).rest = .ok left ∧
    left.remainder = trailer ++ rest ∧ IsTrailer contents trailer

/-- Contents are read exactly from a member that has them. -/
theorem contents?_eq_some_iff :
    contents? octets = some contents ↔ BeginsWithMember octets contents := by
  constructor
  · intro h
    obtain ⟨stream, hskip, h⟩ := Option.bind_eq_some_iff.mp h
    obtain ⟨header, hheader, hwell⟩ := skipHeader?_eq_some_iff.mp hskip
    simp only at h
    split at h
    · rename_i left hleft
      split at h
      · rename_i htrailer
        obtain rfl := Option.some.inj h
        obtain ⟨trailer, rest, heq, htrailer⟩ := isTrailerOf_iff.mp htrailer
        exact ⟨header, stream, left, trailer, rest, hheader, hwell, rfl, hleft, heq, htrailer⟩
      · cases h
    · cases h
  · rintro ⟨header, stream, left, trailer, rest, hheader, hwell, rfl, hleft, heq, htrailer⟩
    have hskip := skipHeader?_eq_some_iff.mpr ⟨header, hheader, hwell⟩
    have hends := isTrailerOf_iff.mpr ⟨trailer, rest, heq, htrailer⟩
    simp only [contents?, hskip, Option.bind_eq_bind, Option.bind_some, hleft, hends, if_true]

end Steward.Compression.Gzip
