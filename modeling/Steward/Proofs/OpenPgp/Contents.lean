import Steward.OpenPgp.Opening

/-!
# What keys reveal of a message

Keys reveal what a message holds in two steps: they decipher it, and the layers of compression around
what is found are taken off. Each step is described by what it leads to, and the functions that take
it agree with the description.

Results:
* `agreedKey?_eq_some_iff`: keys agree on a session key whatever their order.
* `open?_eq_some_iff`, `unpack?_eq_some_iff`, `literal?_eq_some_iff`: the steps, and what is left.
* `contents?_eq`: contents are the body of what is behind at most two layers.
-/

namespace Steward.OpenPgp

variable {keys : List SecretKey} {recipients : List Recipient} {session : SessionKey}

/-! ## Session keys -/

/-- Some key finds a session key, and no key finds another one. -/
def Agree (keys : List SecretKey) (recipients : List Recipient) (session : SessionKey) : Prop :=
  (∃ k ∈ keys, k.sessionKey? recipients = some session) ∧
    ∀ k ∈ keys, ∀ other, k.sessionKey? recipients = some other → other = session

theorem agreedKey?_eq_some_iff :
    agreedKey? keys recipients = some session ↔ Agree keys recipients session := by
  have hmem (s : SessionKey) : s ∈ keys.filterMap (fun k => k.sessionKey? recipients) ↔
      ∃ k ∈ keys, k.sessionKey? recipients = some s := List.mem_filterMap
  have hagree : Agree keys recipients session ↔
      session ∈ keys.filterMap (fun k => k.sessionKey? recipients) ∧
        ∀ s ∈ keys.filterMap (fun k => k.sessionKey? recipients), s = session := by
    simp only [Agree, hmem, forall_exists_index, and_imp]
    exact and_congr_right fun _ => ⟨fun h s k hk => h k hk s, fun h k hk s => h s k hk⟩
  rw [hagree, agreedKey?]
  generalize keys.filterMap (fun k => k.sessionKey? recipients) = found
  cases found with
  | nil => simp
  | cons first others =>
    simp only [List.mem_cons, forall_eq_or_imp, List.all_eq_true, decide_eq_true_eq]
    constructor
    · intro h
      split at h
      · obtain rfl := Option.some.inj h
        exact ⟨.inl rfl, rfl, ‹_›⟩
      · cases h
    · rintro ⟨-, rfl, hothers⟩
      rw [if_pos hothers]

namespace Message

variable {m inner plain : Message} {method : UInt8} {data body : Octets}
  {limit : Nat}

/-! ## Opening -/

/-- What is found when a message is opened with some keys. -/
inductive Opens (keys : List SecretKey) : Message → Message → Prop
  | signed {inner plain : Message} (h : Opens keys inner plain) :
      Opens keys (.signed (some inner)) plain
  | enciphered {recipients : List Recipient} {session : SessionKey} {data packets : Octets}
      {plain : Message} (hsession : Agree keys recipients session)
      (hpackets : decipher? session data = some packets) (hplain : ofOctets? packets = some plain) :
      Opens keys (.enciphered recipients (some data)) plain

theorem open?_eq_some_iff : m.open? keys = some plain ↔ Opens keys m plain := by
  constructor
  · intro h
    fun_induction open? keys m with
    | case1 => cases h
    | case2 => cases h
    | case3 => cases h
    | case4 inner ih => exact .signed (ih h)
    | case5 recipients data =>
      obtain ⟨session, hsession, hrest⟩ := Option.bind_eq_some_iff.mp h
      obtain ⟨octets, hoctets, hrest⟩ := Option.bind_eq_some_iff.mp hrest
      obtain ⟨packets, hpackets, hplain⟩ := Option.bind_eq_some_iff.mp hrest
      subst hoctets
      exact .enciphered (agreedKey?_eq_some_iff.mp hsession) hpackets hplain
  · intro h
    induction h with
    | signed _ ih => exact ih
    | enciphered hsession hpackets hplain =>
      simp only [open?, agreedKey?_eq_some_iff.mpr hsession, hpackets, Option.bind_eq_bind,
        Option.bind_some, hplain]

/-! ## Layers of compression -/

/-- A message is behind at most `limit` layers of compression, each of which holds packets that begin
    with a message. -/
inductive IsBehind : (limit : Nat) → Message → Message → Prop
  | bare {limit : Nat} {m : Message} (h : m.isCompressed = false) : IsBehind limit m m
  | layer {limit : Nat} {method : UInt8} {data octets : Octets} {inner plain : Message}
      (hoctets : expand? method data = some octets) (hinner : ofOctets? octets = some inner)
      (h : IsBehind limit inner plain) : IsBehind (limit + 1) (.compressed method data) plain

/-- The message behind at most `limit` layers of compression. -/
def unpack? : (limit : Nat) → Message → Option Message
  | 0, m => if m.isCompressed then none else some m
  | limit + 1, m => m.decompress?.bind (unpack? limit)

theorem decompress?_of_bare (h : m.isCompressed = false) : m.decompress? = some m := by
  cases m with
  | compressed => cases h
  | literal => rfl
  | signed => rfl
  | enciphered => rfl

theorem eq_compressed (h : m.isCompressed = true) : ∃ method data, m = .compressed method data := by
  cases m with
  | compressed method data => exact ⟨method, data, rfl⟩
  | literal => cases h
  | signed => cases h
  | enciphered => cases h

theorem isBehind_bare_iff (h : m.isCompressed = false) : IsBehind limit m plain ↔ m = plain := by
  constructor
  · rintro (- | -)
    · rfl
    · cases h
  · rintro rfl
    exact .bare h

theorem isBehind_compressed_iff : IsBehind (limit + 1) (.compressed method data) plain ↔
    ∃ inner, (expand? method data).bind ofOctets? = some inner ∧ IsBehind limit inner plain := by
  constructor
  · rintro (hbare | ⟨hoctets, hinner, h⟩)
    · cases hbare
    · exact ⟨_, Option.bind_eq_some_iff.mpr ⟨_, hoctets, hinner⟩, h⟩
  · rintro ⟨inner, hinner, h⟩
    obtain ⟨octets, hoctets, hinner⟩ := Option.bind_eq_some_iff.mp hinner
    exact .layer hoctets hinner h

theorem unpack?_eq_some_iff : m.unpack? limit = some plain ↔ IsBehind limit m plain := by
  induction limit generalizing m with
  | zero =>
    cases hm : m.isCompressed with
    | false => rw [isBehind_bare_iff hm, unpack?, hm, if_neg Bool.false_ne_true, Option.some_inj]
    | true =>
      obtain ⟨method, data, rfl⟩ := eq_compressed hm
      constructor
      · intro h
        cases h
      · rintro ⟨hbare⟩
        cases hbare
  | succ limit ih =>
    rw [unpack?, Option.bind_eq_some_iff]
    cases hm : m.isCompressed with
    | false => simp [decompress?_of_bare hm, ih, isBehind_bare_iff hm]
    | true =>
      obtain ⟨method, data, rfl⟩ := eq_compressed hm
      simp only [isBehind_compressed_iff, decompress?, ih]

/-! ## Bodies -/

/-- A body that a message has as a literal, or behind signatures. -/
inductive HasBody : Message → Octets → Prop
  | literal {body : Octets} : HasBody (.literal body) body
  | signed {inner : Message} {body : Octets} (h : HasBody inner body) :
      HasBody (.signed (some inner)) body

theorem literal?_eq_some_iff : m.literal? = some body ↔ m.HasBody body := by
  constructor
  · intro h
    fun_induction literal? m with
    | case1 => exact Option.some.inj h ▸ .literal
    | case2 inner ih => exact .signed (ih h)
    | case3 => cases h
  · intro h
    induction h with
    | literal => rfl
    | signed _ ih => exact ih

/-! ## Contents -/

/-- Contents are the body of what is behind at most two layers, or empty without a body. -/
theorem contents?_eq : m.contents? = (m.unpack? 2).map fun plain => plain.literal?.getD [] := by
  cases houter : m.decompress? with
  | none => simp [contents?, unpack?, houter]
  | some inner =>
    cases hinner : inner.decompress? with
    | none => simp [contents?, unpack?, houter, hinner]
    | some plain =>
      cases hplain : plain.isCompressed <;>
        simp [contents?, unpack?, houter, hinner, hplain]

end Message

end Steward.OpenPgp
