import Entailment.Source
import Mathlib.Data.List.Basic
import Mathlib.Tactic.Common

/-!
# Texts and their bytes

A text is written and read as the bytes of its characters, one character after the other.  A
character below 128 is the byte with its number, and all other characters have only bytes from 128
on.  So such a byte is found in the bytes of a text exactly where the character is in the text.

* `Source.encode_eq_flatMap`, `Source.encode_join` : the bytes of characters and of texts that
  follow each other;
* `Source.decode_eq_ok_iff`, `Source.decode_eq_error_iff` : decoding undoes encoding, and fails on
  bytes that encode no text;
* `Source.toUInt8_mem_flatMap_iff` : the byte of a character below 128 is found only where the
  character is.
-/

namespace Entailment

namespace Source

/-! ### Encoding -/

theorem encode_eq_flatMap (text : String) :
    encode text = text.toList.flatMap String.utf8EncodeChar := by
  have h : text.toUTF8 = (text.toList.flatMap String.utf8EncodeChar).toByteArray :=
    String.utf8Encode_toList.symm
  rw [encode, h, List.toList_data_toByteArray]

theorem encode_append (text more : String) :
    encode (text ++ more) = encode text ++ encode more := by
  simp [encode, String.toUTF8_eq_toByteArray]

/-- Texts have the bytes of one text. -/
theorem encode_join (texts : List String) : encode (String.join texts) = texts.flatMap encode := by
  induction texts with
  | nil => rfl
  | cons text rest ih => rw [String.join_cons, encode_append, ih, List.flatMap_cons]

/-! ### Decoding -/

theorem decode_eq_ok_iff {bytes : List UInt8} {text : String} :
    decode bytes = .ok text ↔ encode text = bytes := by
  constructor
  · intro h
    simp only [decode, String.fromUTF8?] at h
    split_ifs at h
    cases h
    rfl
  · rintro rfl
    simp only [decode, encode, String.fromUTF8?, String.toUTF8_eq_toByteArray]
    rw [dif_pos text.isValidUTF8]
    rfl

theorem eq_notText_of_decode {bytes : List UInt8} {fault : StreamError}
    (h : decode bytes = .error fault) : fault = notText := by
  unfold decode at h
  split at h
  · cases h
  · cases h
    rfl

/-- Bytes cannot be decoded when no text has them. -/
theorem decode_eq_error_iff {bytes : List UInt8} {fault : StreamError} :
    decode bytes = .error fault ↔ fault = notText ∧ ∀ text, encode text ≠ bytes := by
  constructor
  · intro h
    refine ⟨eq_notText_of_decode h, fun text htext => ?_⟩
    rw [decode_eq_ok_iff.2 htext] at h
    cases h
  · rintro ⟨rfl, h⟩
    cases hdecode : decode bytes with
    | ok text => exact absurd (decode_eq_ok_iff.1 hdecode) (h text)
    | error fault => rw [eq_notText_of_decode hdecode]

/-! ### Characters below 128 -/

theorem utf8EncodeChar_of_lt {c : Char} (h : c.toNat < 128) :
    String.utf8EncodeChar c = [c.toUInt8] := by
  have hle : c.val.toNat ≤ 127 := Nat.le_of_lt_succ h
  rw [String.utf8EncodeChar, if_pos hle]
  rfl

/-- Only a character below 128 has the byte with its number. -/
theorem toUInt8_mem_utf8EncodeChar_iff {ascii c : Char} (h : ascii.toNat < 128) :
    ascii.toUInt8 ∈ String.utf8EncodeChar c ↔ c = ascii := by
  have hbyte : ascii.toUInt8.toNat = ascii.val.toNat := by
    change ascii.val.toNat % 256 = _
    exact Nat.mod_eq_of_lt (Nat.lt_trans h (by decide))
  have hlt : ascii.toUInt8.toNat < 128 := hbyte ▸ h
  rw [Char.ext_iff, ← UInt32.toNat_inj, ← hbyte]
  generalize ascii.toUInt8 = byte at hlt ⊢
  -- the bytes of a character from 128 on carry a mark that makes them 128 or more
  simp only [String.utf8EncodeChar]
  generalize c.val.toNat = n
  split_ifs <;>
    simp (disch := omega) only [List.mem_cons, List.not_mem_nil, or_false, ← UInt8.toNat_inj,
      UInt8.toNat_ofNat', Nat.mod_eq_of_lt, Nat.reducePow] <;>
    omega

theorem toUInt8_mem_flatMap_iff {ascii : Char} (h : ascii.toNat < 128) {text : List Char} :
    ascii.toUInt8 ∈ text.flatMap String.utf8EncodeChar ↔ ascii ∈ text := by
  simp [List.mem_flatMap, toUInt8_mem_utf8EncodeChar_iff h]

theorem getLast?_of_flatMap {ascii : Char} (h : ascii.toNat < 128) {text : List Char}
    (hlast : (text.flatMap String.utf8EncodeChar).getLast? = some ascii.toUInt8) :
    text.getLast? = some ascii := by
  rcases List.eq_nil_or_concat' text with rfl | ⟨init, c, rfl⟩
  · cases hlast
  · rw [List.flatMap_append, List.flatMap_singleton,
      List.getLast?_append_of_ne_nil _ String.utf8EncodeChar_ne_nil] at hlast
    rw [(toUInt8_mem_utf8EncodeChar_iff h).1 (List.mem_of_getLast? hlast), List.getLast?_concat]

end Source

end Entailment
