import Steward.Proofs.Compression.Member
import Steward.Proofs.OpenPgp.Contents
import Steward.Proofs.Text.Base64
import Steward.Proofs.Text.ByteOrder
import Steward.Secret.Decrypt

/-!
# What a secret is opened to

A secret is a text in base64 of octets, of which a keyring reveals a message, whose body begins with a
compressed member of some text. Opening gives this text and nothing else. Where one of the stages
leads nowhere, opening fails in the first that does, and keeps the input.

Results:
* `textOf?_eq_some_iff`, `revealed?_eq_some_iff`: what the later stages give.
* `isSecret_or_failsAt`: an input is a secret, or a stage fails for it.
* `decrypt_answers`: what opening answers, for every input and keyring.
-/

namespace Steward.Secret

open Compression OpenPgp

variable {input text : String} {ring : Keyring} {octets body : Octets} {plain : Message}
  {stage : Stage}

/-! ## From octets to a message -/

/-- A keyring reveals a message of some octets: the message that they begin with is opened, and what
    is found is unpacked. -/
inductive Reveals (ring : Keyring) (octets : Octets) (plain : Message) : Prop
  | intro {message inner : Message} (hmessage : Message.ofOctets? octets = some message)
      (hinner : Message.Opens ring.keys message inner) (hplain : Message.IsBehind 2 inner plain)

/-- The message that a keyring reveals of some octets. -/
def revealed? (ring : Keyring) (octets : Octets) : Option Message :=
  (Message.ofOctets? octets).bind fun message =>
    (message.open? ring.keys).bind (Message.unpack? 2)

theorem revealed?_eq_some_iff : revealed? ring octets = some plain ↔ Reveals ring octets plain := by
  simp only [revealed?, Option.bind_eq_some_iff, Message.open?_eq_some_iff,
    Message.unpack?_eq_some_iff]
  exact ⟨fun ⟨_, hmessage, _, hinner, hplain⟩ => ⟨hmessage, hinner, hplain⟩,
    fun ⟨hmessage, hinner, hplain⟩ => ⟨_, hmessage, _, hinner, hplain⟩⟩

theorem opened?_eq :
    opened? ring octets = (revealed? ring octets).map fun plain => plain.literal?.getD [] := by
  simp only [opened?, revealed?, Message.contents?_eq, Option.bind_eq_bind, Option.map_bind,
    Function.comp_def]

/-! ## From a body to text -/

theorem textOf?_eq_some_iff : textOf? octets = some text ↔ octets = Text.bytes text := by
  rw [textOf?, String.fromUTF8?]
  constructor
  · intro h
    split at h
    · exact Option.some.inj h ▸ rfl
    · cases h
  · rintro rfl
    exact dif_pos text.isValidUTF8

/-- A body says a text: it begins with a member whose contents are the UTF-8 form of the text. -/
def Says (body : Octets) (text : String) : Prop :=
  Gzip.BeginsWithMember body (Text.bytes text)

theorem contents?_bind_textOf?_eq_some_iff :
    (Gzip.contents? body).bind textOf? = some text ↔ Says body text := by
  simp only [Option.bind_eq_some_iff, Gzip.contents?_eq_some_iff, textOf?_eq_some_iff]
  constructor
  · rintro ⟨contents, h, rfl⟩
    exact h
  · exact fun h => ⟨_, h, rfl⟩

example : Says [0x1F, 0x8B, 8, 0, 0, 0, 0, 0, 0, 3, 1, 2, 0, 0xFD, 0xFF, 0x68, 0x69, 0xAC, 0x2A, 0x93,
    0xD8, 2, 0, 0, 0] "hi" :=
  contents?_bind_textOf?_eq_some_iff.mp (by decide +kernel)

/-- What is empty has no header, and so says nothing. -/
theorem not_says_nil : ¬ Says [] text := by
  rintro ⟨header, _, _, _, _, hheader, hwell, -⟩
  obtain ⟨rfl, -⟩ := List.append_eq_nil_iff.mp hheader.symm
  cases hwell

/-! ## Opening -/

/-- An input is a secret that a keyring opens to a text. -/
inductive IsSecret (input : String) (ring : Keyring) (text : String) : Prop
  | intro {octets body : Octets} {plain : Message}
      (hoctets : input.toList = Text.Base64.encode octets) (hplain : Reveals ring octets plain)
      (hbody : plain.HasBody body) (htext : Says body text)

/-- A stage is the first that fails for an input: the stages before it lead to something, but it leads
    nowhere from there. -/
inductive FailsAt (input : String) (ring : Keyring) : Stage → Prop
  | decode (h : ∀ octets, input.toList ≠ Text.Base64.encode octets) : FailsAt input ring .decode
  | crypto {octets : Octets} (hoctets : input.toList = Text.Base64.encode octets)
      (h : ∀ plain, ¬ Reveals ring octets plain) : FailsAt input ring .crypto
  | decompress {octets : Octets} {plain : Message}
      (hoctets : input.toList = Text.Base64.encode octets) (hplain : Reveals ring octets plain)
      (h : ∀ body text, plain.HasBody body → ¬ Says body text) : FailsAt input ring .decompress

theorem isSecret_or_failsAt (input : String) (ring : Keyring) :
    (∃ text, IsSecret input ring text) ∨ ∃ stage, FailsAt input ring stage := by
  by_cases hoctets : ∃ octets, input.toList = Text.Base64.encode octets
  · obtain ⟨octets, hoctets⟩ := hoctets
    by_cases hplain : ∃ plain, Reveals ring octets plain
    · obtain ⟨plain, hplain⟩ := hplain
      by_cases htext : ∃ body text, plain.HasBody body ∧ Says body text
      · obtain ⟨body, text, hbody, htext⟩ := htext
        exact .inl ⟨text, hoctets, hplain, hbody, htext⟩
      · exact .inr ⟨_, .decompress hoctets hplain fun body text hbody hsays =>
          htext ⟨body, text, hbody, hsays⟩⟩
    · exact .inr ⟨_, .crypto hoctets fun plain h => hplain ⟨plain, h⟩⟩
  · exact .inr ⟨_, .decode fun octets h => hoctets ⟨octets, h⟩⟩

/-- What is opened once the input is decoded. -/
theorem decrypt_of_encoded (h : input.toList = Text.Base64.encode octets) :
    decrypt input ring = (openMessage input ring octets).bind (decompress input) := by
  rw [decrypt, decode, Text.Base64.decode?_eq_some_iff.mpr h]
  rfl

/-- What is opened once a message is revealed: its body, or nothing instead of it. -/
theorem decrypt_of_reveals (hoctets : input.toList = Text.Base64.encode octets)
    (hplain : Reveals ring octets plain) :
    decrypt input ring = decompress input (plain.literal?.getD []) := by
  rw [decrypt_of_encoded hoctets, openMessage, opened?_eq, revealed?_eq_some_iff.mpr hplain]
  rfl

theorem decrypt_of_isSecret (h : IsSecret input ring text) : decrypt input ring = .ok text := by
  obtain ⟨hoctets, hplain, hbody, htext⟩ := h
  rw [decrypt_of_reveals hoctets hplain, Message.literal?_eq_some_iff.mpr hbody, Option.getD_some,
    decompress, contents?_bind_textOf?_eq_some_iff.mpr htext]

theorem decrypt_of_failsAt (h : FailsAt input ring stage) :
    ∃ cause, decrypt input ring = .error ⟨stage, input, cause⟩ := by
  cases h with
  | decode h =>
    have hnone : Text.Base64.decode? input.toList = none := Option.eq_none_iff_forall_ne_some.mpr
      fun octets hsome => h octets (Text.Base64.decode?_eq_some_iff.mp hsome)
    rw [decrypt, decode, hnone]
    exact ⟨_, rfl⟩
  | @crypto octets hoctets h =>
    have hnone : revealed? ring octets = none := Option.eq_none_iff_forall_ne_some.mpr
      fun plain hsome => h plain (revealed?_eq_some_iff.mp hsome)
    rw [decrypt_of_encoded hoctets, openMessage, opened?_eq, hnone]
    exact ⟨_, rfl⟩
  | @decompress octets plain hoctets hplain h =>
    -- A body that is missing is taken to be empty, and nothing is said by that either.
    have hsays (text : String) : ¬ Says (plain.literal?.getD []) text := by
      cases hbody : plain.literal? with
      | none => exact not_says_nil
      | some body => exact h body text (Message.literal?_eq_some_iff.mp hbody)
    have hnone : (Gzip.contents? (plain.literal?.getD [])).bind textOf? = none :=
      Option.eq_none_iff_forall_ne_some.mpr fun text hsome =>
        hsays text (contents?_bind_textOf?_eq_some_iff.mp hsome)
    rw [decrypt_of_reveals hoctets hplain, decompress, hnone]
    exact ⟨_, rfl⟩

theorem isSecret_of_decrypt (h : decrypt input ring = .ok text) : IsSecret input ring text := by
  obtain ⟨other, hsecret⟩ | ⟨stage, hfails⟩ := isSecret_or_failsAt input ring
  · cases (decrypt_of_isSecret hsecret).symm.trans h
    exact hsecret
  · obtain ⟨cause, herror⟩ := decrypt_of_failsAt hfails
    cases herror.symm.trans h

theorem failsAt_of_decrypt {e : OpenError} (h : decrypt input ring = .error e) :
    FailsAt input ring e.stage ∧ e.input = input := by
  obtain ⟨text, hsecret⟩ | ⟨stage, hfails⟩ := isSecret_or_failsAt input ring
  · cases (decrypt_of_isSecret hsecret).symm.trans h
  · obtain ⟨cause, herror⟩ := decrypt_of_failsAt hfails
    cases herror.symm.trans h
    exact ⟨hfails, rfl⟩

end Steward.Secret
