import Rescan.Text.Blank

/-!
# UTF-8

The encoding of a character is the one of the core library. This file adds what a reader of single
bytes needs: how many bytes a leading byte announces, and the character that a complete sequence
stands for.

## Main statements

* `decode_eq_some_iff`: a sequence decodes to `c` exactly when it is the encoding of `c`, so
  overlong forms, surrogates and values beyond the last code point are refused.
-/

namespace Rescan.Utf8

/-- The UTF-8 encoding of a text. -/
def encode (t : Text) : List UInt8 :=
  t.flatMap String.utf8EncodeChar

/-- The length of the sequence that a leading byte announces; a byte that leads no sequence
announces none. -/
def announced (lead : UInt8) : Option Nat :=
  if lead ≤ 0x7F then some 1
  else if 0xC2 ≤ lead ∧ lead ≤ 0xDF then some 2
  else if 0xE0 ≤ lead ∧ lead ≤ 0xEF then some 3
  else if 0xF0 ≤ lead ∧ lead ≤ 0xF4 then some 4
  else none

/-- The character of which `bytes` is the whole encoding. -/
def decode (bytes : List UInt8) : Option Char :=
  (bytes.toByteArray.utf8DecodeChar? 0).filter fun c => c.utf8Size == bytes.length

theorem decode_encodeChar (c : Char) : decode (String.utf8EncodeChar c) = some c := by
  have h : (String.utf8EncodeChar c).toByteArray.utf8DecodeChar? 0 = some c := by
    have := ByteArray.utf8DecodeChar?_utf8EncodeChar_append (b := ByteArray.empty) (c := c)
    rwa [ByteArray.append_empty] at this
  simp [decode, h, String.length_utf8EncodeChar]

/-- A sequence of bytes decodes to `c` exactly when it is the encoding of `c`. -/
theorem decode_eq_some_iff {bytes : List UInt8} {c : Char} :
    decode bytes = some c ↔ bytes = String.utf8EncodeChar c := by
  constructor
  · intro h
    simp only [decode, Option.filter_eq_some_iff, beq_iff_eq] at h
    obtain ⟨hd, hl⟩ := h
    -- the sequence starts with the encoding of `c`, and has the same length
    obtain ⟨l, hl'⟩ := ByteArray.exists_of_utf8DecodeChar?_eq_some hd
    have hb : bytes = String.utf8EncodeChar c ++ l.data.toList := by
      have := congrArg (fun b => b.data.toList) hl'
      simpa using this
    have hlen := congrArg List.length hb
    rw [List.length_append, String.length_utf8EncodeChar, hl] at hlen
    have : l.data.toList = [] := List.eq_nil_of_length_eq_zero (by omega)
    rw [hb, this, List.append_nil]
  · rintro rfl
    exact decode_encodeChar c

/-- An overlong form of the slash is refused. -/
example : decode [0xC0, 0xAF] = none := by decide +kernel

end Rescan.Utf8
