import Rescan.Options
import Rescan.Stream.Basic

/-!
# Buffered sources

A buffer turns a source into a stream. Characters that are handed back wait in a buffer of fixed
capacity and are read again before the source is asked for another one. The characters read, less
those handed back, are counted.

A text that does not fit into the buffer is refused as a whole, and nothing changes.

## Main statements

* `putBack_eq_ok_iff`: a text is taken back exactly when everything pending fits into the buffer.
-/

namespace Rescan

variable {σ α : Type}

/-- A source with a bounded buffer of characters to be read again. -/
structure Buffered (σ : Type) where
  /-- Where characters come from when none is pending. -/
  source : σ
  /-- The characters handed back, in the order in which they are read again. -/
  pending : Text := []
  /-- The number of characters that may be pending. -/
  capacity : Nat
  /-- The number of characters read and not handed back. -/
  offset : Nat := 0
deriving DecidableEq, Repr

namespace Buffered

/-- A source at its start, with an empty buffer. -/
def start (source : σ) (options : Options := {}) : Buffered σ where
  source := source
  capacity := options.capacity

/-- Applies an action to the source itself, behind the back of the buffer and the counter. -/
def onSource (x : Scan σ α) : Scan (Buffered σ) α where
  run b := (x.run b.source).mapState fun source => { b with source }

/-- The next character: the first of those pending, or else the next one of the source. -/
def next [Source σ] (b : Buffered σ) : Outcome (Buffered σ) (Option Char) :=
  match b.pending with
  | c :: pending => .ok (some c) { b with pending, offset := b.offset + 1 }
  | [] =>
    match Source.next.run b.source with
    | .ok (some c) source => .ok (some c) { b with source, offset := b.offset + 1 }
    | .ok none source => .ok none { b with source }
    | .error e source => .error e { b with source }

/-- Hands a text back if there is room for all of it. Characters that were never read may be handed
back too, so the counter stops at zero. -/
def putBack (t : Text) (b : Buffered σ) : Outcome (Buffered σ) Unit :=
  let requested := b.pending.length + t.length
  if b.capacity < requested then
    .error (.overfull b.capacity requested) b
  else
    .ok () { b with pending := t ++ b.pending, offset := b.offset - t.length }

theorem next_of_pending [Source σ] {b : Buffered σ} {c : Char} {t : Text}
    (h : b.pending = c :: t) :
    next b = .ok (some c) { b with pending := t, offset := b.offset + 1 } := by
  simp [next, h]

theorem next_eq_some [Source σ] {b b' : Buffered σ} {c : Char} (h : next b = .ok (some c) b') :
    (∃ t, b.pending = c :: t ∧ b' = { b with pending := t, offset := b.offset + 1 }) ∨
    (b.pending = [] ∧ ∃ source, Source.next.run b.source = .ok (some c) source ∧
      b' = { b with source, offset := b.offset + 1 }) := by
  unfold next at h
  split at h
  · next d t hp =>
    cases h
    exact .inl ⟨t, hp, rfl⟩
  · next hp =>
    split at h <;> cases h
    next source hs => exact .inr ⟨hp, source, hs, rfl⟩

theorem next_eq_none [Source σ] {b b' : Buffered σ} (h : next b = .ok none b') :
    b.pending = [] ∧ ∃ source, Source.next.run b.source = .ok none source ∧
      b' = { b with source } := by
  unfold next at h
  split at h
  · cases h
  · next hp =>
    split at h <;> cases h
    next source hs => exact ⟨hp, source, hs, rfl⟩

theorem next_eq_error [Source σ] {b b' : Buffered σ} {e : Fault} (h : next b = .error e b') :
    b.pending = [] ∧ ∃ source, Source.next.run b.source = .error e source ∧
      b' = { b with source } := by
  unfold next at h
  split at h
  · cases h
  · next hp =>
    split at h <;> cases h
    next source hs => exact ⟨hp, source, hs, rfl⟩

/-- Handing back succeeds exactly when everything pending fits into the buffer. -/
theorem putBack_eq_ok_iff {t : Text} {b b' : Buffered σ} :
    putBack t b = .ok () b' ↔ b.pending.length + t.length ≤ b.capacity ∧
      b' = { b with pending := t ++ b.pending, offset := b.offset - t.length } := by
  simp only [putBack]
  split
  · simp only [reduceCtorEq, false_iff, not_and]
    omega
  · simp only [Outcome.ok.injEq, true_and]
    constructor
    · rintro rfl
      exact ⟨by omega, rfl⟩
    · rintro ⟨_, rfl⟩
      rfl

/-- Handing back fails exactly when not everything fits, and then it changes nothing. -/
theorem putBack_eq_error_iff {t : Text} {b b' : Buffered σ} {e : Fault} :
    putBack t b = .error e b' ↔ b.capacity < b.pending.length + t.length ∧
      e = .overfull b.capacity (b.pending.length + t.length) ∧ b' = b := by
  simp only [putBack]
  split
  · next h =>
    simp only [Outcome.error.injEq, h, true_and]
    exact and_congr eq_comm eq_comm
  · next h => simp [h]

instance [Source σ] : CharStream (Buffered σ) where
  next := ⟨next⟩
  left b := b.pending.length + Source.left b.source
  left_some {b b' c} h := by
    rcases next_eq_some h with ⟨t, hp, rfl⟩ | ⟨hp, source, hs, rfl⟩
    · simp [hp]
    · have := Source.left_some hs
      simpa [hp] using this
  left_none {b b'} h := by
    obtain ⟨hp, source, hs, rfl⟩ := next_eq_none h
    have := Source.left_none hs
    simpa [hp] using this
  putBack t := ⟨putBack t⟩
  left_putBack {t b b'} h := by
    obtain ⟨_, rfl⟩ := putBack_eq_ok_iff.1 h
    simp only [List.length_append]
    omega
  next_putBack {c t b b'} h := by
    obtain ⟨_, rfl⟩ := putBack_eq_ok_iff.1 h
    exact ⟨_, rfl⟩

end Buffered

end Rescan
