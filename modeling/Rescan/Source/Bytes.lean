import Rescan.Source.Basic
import Rescan.Text.Utf8

/-!
# Characters from bytes

A reader of bytes is described by its script: the events that happen, one after the other, as bytes
are asked for. Characters are decoded one byte at a time, so no byte after a character is ever asked
for, and every byte that was taken stays taken, also those of a damaged sequence.

## Main definitions

* `Script`: what a reader will do; `Script.bytes`: the bytes it still has to give.
* `ByteSource`: a script and the number of bytes taken from it, read as UTF-8.

## Main statements

* `Script.bytes_next`: asking for a byte takes the first of the bytes and nothing else.
-/

namespace Rescan

/-! ## Scripts -/

/-- What happens when a reader is asked for more bytes. -/
inductive Event where
  /-- These bytes become available. -/
  | data (bytes : List UInt8)
  /-- The attempt is interrupted, and made again at once. -/
  | interrupt
  /-- The attempt fails, once. -/
  | failure (message : String)
  /-- The attempt finds an end of input, once. -/
  | pause
deriving DecidableEq, Repr

/-- What a reader will do; after the last event it is at the end of its input for ever. -/
abbrev Script := List Event

namespace Script

/-- The next byte, or `none` at an end of input. -/
def next : Script → Outcome Script (Option UInt8)
  | [] => .ok none []
  | .data [] :: rest => next rest
  | .data (byte :: bytes) :: rest => .ok (some byte) (.data bytes :: rest)
  | .interrupt :: rest => next rest
  | .failure message :: rest => .error (.reader message) rest
  | .pause :: rest => .ok none rest

/-- The bytes still to come, whatever happens between them. -/
def bytes : Script → List UInt8
  | [] => []
  | .data bytes :: rest => bytes ++ Script.bytes rest
  | .interrupt :: rest => Script.bytes rest
  | .failure _ :: rest => Script.bytes rest
  | .pause :: rest => Script.bytes rest

/-- Asking for a byte takes the first of the bytes, if it answers one, and nothing else. -/
theorem bytes_next (script : Script) :
    script.bytes = match next script with
      | .ok (some byte) rest => byte :: Script.bytes rest
      | .ok none rest => Script.bytes rest
      | .error _ rest => Script.bytes rest := by
  fun_induction next script <;> simp_all [bytes]

end Script

/-! ## Decoding -/

/-- A reader of bytes and how many have been taken from it. -/
structure ByteSource where
  /-- What the reader will do. -/
  script : Script
  /-- The number of bytes taken so far. -/
  consumed : Nat := 0
deriving DecidableEq, Repr

namespace ByteSource

/-- The source over bytes that are all available at once. -/
def ofBytes (bytes : List UInt8) : ByteSource where
  script := [.data bytes]

/-- The bytes that have not been taken yet. -/
def bytes (b : ByteSource) : List UInt8 :=
  b.script.bytes

/-- Takes the next byte and counts it. -/
def nextByte : Scan ByteSource (Option UInt8) where
  run b :=
    match b.script.next with
    | .ok (some byte) script => .ok (some byte) { script, consumed := b.consumed + 1 }
    | .ok none script => .ok none { b with script }
    | .error e script => .error e { b with script }

/-- Takes the given number of bytes, the rest of a sequence that began at offset `start`. The
sequence is malformed if the input ends within it. -/
def trail (start : Nat) : Nat → Scan ByteSource (List UInt8)
  | 0 => pure []
  | n + 1 => do
    match ← nextByte with
    | none => Scan.fail (.malformed start)
    | some byte => return byte :: (← trail start n)

/-- Takes the bytes that the leading byte announces and decodes them. A sequence that is not the
encoding of a character is reported at the offset of its leading byte. -/
def next : Scan ByteSource (Option Char) := do
  let start := (← Scan.get).consumed
  match ← nextByte with
  | none => return none
  | some lead =>
    match Utf8.announced lead with
    | none => Scan.fail (.malformed start)
    | some length =>
      match Utf8.decode (lead :: (← trail start (length - 1))) with
      | none => Scan.fail (.malformed start)
      | some c => return some c

/-! ## Bytes taken -/

theorem bytes_nextByte_some {b b' : ByteSource} {byte : UInt8}
    (h : nextByte.run b = .ok (some byte) b') : b.bytes = byte :: b'.bytes := by
  have := b.script.bytes_next
  simp only [nextByte] at h
  split at h <;> simp_all [bytes]
  rw [← h.2]

theorem bytes_nextByte_none {b b' : ByteSource} (h : nextByte.run b = .ok none b') :
    b.bytes = b'.bytes := by
  have := b.script.bytes_next
  simp only [nextByte] at h
  split at h <;> simp_all [bytes]
  rw [← h]

/-- The bytes of a trail are the next ones, in order. -/
theorem bytes_trail {start n : Nat} {b b' : ByteSource} {taken : List UInt8}
    (h : (trail start n).run b = .ok taken b') : b.bytes = taken ++ b'.bytes := by
  induction n generalizing b taken with
  | zero =>
    rw [trail, Scan.run_pure] at h
    cases h
    rfl
  | succ n ih =>
    obtain ⟨byte, b₁, h₁, h⟩ := Scan.run_bind_eq_ok_iff.1 h
    cases byte with
    | none => cases h
    | some byte =>
      obtain ⟨rest, b₂, h₂, h⟩ := Scan.run_bind_eq_ok_iff.1 h
      cases h
      rw [bytes_nextByte_some h₁, ih h₂, List.cons_append]

/-- A character is decoded from the next bytes, which are its encoding. -/
theorem bytes_next_some {b b' : ByteSource} {c : Char} (h : next.run b = .ok (some c) b') :
    b.bytes = String.utf8EncodeChar c ++ b'.bytes := by
  obtain ⟨start, b₀, h₀, h⟩ := Scan.run_bind_eq_ok_iff.1 h
  cases h₀
  obtain ⟨lead, b₁, h₁, h⟩ := Scan.run_bind_eq_ok_iff.1 h
  cases lead with
  | none => cases h
  | some lead =>
    cases hl : Utf8.announced lead with
    | none =>
      simp only [hl] at h
      cases h
    | some length =>
      simp only [hl] at h
      obtain ⟨rest, b₂, h₂, h⟩ := Scan.run_bind_eq_ok_iff.1 h
      cases hd : Utf8.decode (lead :: rest) with
      | none =>
        simp only [hd] at h
        cases h
      | some d =>
        simp only [hd] at h
        cases h
        rw [bytes_nextByte_some h₁, bytes_trail h₂, ← Utf8.decode_eq_some_iff.1 hd,
          List.cons_append]

/-- An end of input takes no byte. -/
theorem bytes_next_none {b b' : ByteSource} (h : next.run b = .ok none b') : b.bytes = b'.bytes := by
  obtain ⟨start, b₀, h₀, h⟩ := Scan.run_bind_eq_ok_iff.1 h
  cases h₀
  obtain ⟨lead, b₁, h₁, h⟩ := Scan.run_bind_eq_ok_iff.1 h
  cases lead with
  | none =>
    cases h
    exact bytes_nextByte_none h₁
  | some lead =>
    cases hl : Utf8.announced lead with
    | none =>
      simp only [hl] at h
      cases h
    | some length =>
      simp only [hl] at h
      obtain ⟨rest, b₂, h₂, h⟩ := Scan.run_bind_eq_ok_iff.1 h
      cases hd : Utf8.decode (lead :: rest) <;>
      · simp only [hd] at h
        cases h

instance : Source ByteSource where
  next := next
  left b := b.bytes.length
  left_some {b b' c} h := by
    rw [bytes_next_some h, List.length_append, String.length_utf8EncodeChar]
    have := c.utf8Size_pos
    omega
  left_none h := Nat.le_of_eq (congrArg List.length (bytes_next_none h).symm)

end ByteSource

end Rescan
