import Rescan.Source.Passage
import Rescan.Stream.Buffered

/-!
# What is still to be read

A source in memory will hand out certain characters, whatever is done with it. Together with the
characters that wait in the buffer they are the stream of a buffered source: reading takes its first
character, and handing back puts characters in front of it.

## Main definitions

* `Prepared`: sources whose characters are known.
* `Buffered.stream`: the characters still to be read, the next one first.
* `Buffered.Takes`: a text was taken off the stream and counted.
-/

namespace Rescan

variable {σ : Type}

/-! ## Prepared sources -/

/-- Sources of which it is known what they will hand out. -/
class Prepared (σ : Type) extends Source σ where
  /-- The characters still to come, in order. Ends between them are not shown. -/
  upcoming : σ → Text
  /-- A read takes the first of them, or finds an end and takes none. -/
  upcoming_next : ∀ {s s' c}, next.run s = .ok c s' → upcoming s = c.toList ++ upcoming s'

instance : Prepared Passage where
  upcoming p := p.rest
  upcoming_next {p p' c} h := by
    obtain ⟨rest⟩ := p
    cases rest <;> cases h <;> rfl

instance : Prepared Feed where
  upcoming f := f.answers.filterMap id
  upcoming_next {f f' c} h := by
    obtain ⟨answers⟩ := f
    cases answers with
    | nil =>
      cases h
      rfl
    | cons answer rest =>
      cases h
      cases c <;> rfl

/-! ## Streams -/

namespace Buffered

section Prepared

variable [Prepared σ] {b b' : Buffered σ}

/-- The characters still to be read: those pending, and then those of the source. -/
def stream (b : Buffered σ) : Text :=
  b.pending ++ Prepared.upcoming b.source

/-- A read takes the first character of the stream and counts it, or it finds an end. -/
theorem stream_next {c : Option Char} (h : next b = .ok c b') :
    b.stream = c.toList ++ b'.stream ∧ b'.offset = b.offset + c.toList.length := by
  cases c with
  | some c =>
    rcases next_eq_some h with ⟨t, hp, rfl⟩ | ⟨hp, source, hs, rfl⟩
    · simp [stream, hp]
    · simp [stream, hp, Prepared.upcoming_next hs]
  | none =>
    -- an end may lie in the middle of a source, so the stream need not be empty
    obtain ⟨hp, source, hs, rfl⟩ := next_eq_none h
    simp [stream, hp, Prepared.upcoming_next hs]

/-- A text that is handed back comes in front of the stream. -/
theorem stream_putBack {t : Text} (h : putBack t b = .ok () b') :
    b'.stream = t ++ b.stream ∧ b'.offset = b.offset - t.length := by
  obtain ⟨-, rfl⟩ := putBack_eq_ok_iff.1 h
  exact ⟨List.append_assoc .., rfl⟩

/-! ### What was taken off a stream -/

/-- From `b` to `b'` the text `v` was taken off the stream and counted. -/
structure Takes (v : Text) (b b' : Buffered σ) : Prop where
  stream : b.stream = v ++ b'.stream
  offset : b'.offset = b.offset + v.length

namespace Takes

variable {v u : Text} {b b₁ b' : Buffered σ} {c : Option Char}

theorem refl (b : Buffered σ) : Takes [] b b :=
  ⟨rfl, rfl⟩

theorem next (h : Takes v b b₁) (hn : Buffered.next b₁ = .ok c b') :
    Takes (v ++ c.toList) b b' := by
  obtain ⟨hs, ho⟩ := stream_next hn
  refine ⟨?_, ?_⟩
  · rw [h.stream, hs, List.append_assoc]
  · rw [ho, h.offset, List.length_append, Nat.add_assoc]

/-- The counter does not stop at zero, since it has counted what is handed back. -/
theorem putBack (h : Takes (v ++ u) b b₁) (hp : Buffered.putBack u b₁ = .ok () b') :
    Takes v b b' := by
  obtain ⟨hs, ho⟩ := stream_putBack hp
  refine ⟨?_, ?_⟩
  · rw [h.stream, hs, List.append_assoc]
  · rw [ho, h.offset, List.length_append, ← Nat.add_assoc, Nat.add_sub_cancel]

/-- What was taken can be told from the streams before and after. -/
theorem of_append (h : Takes v b b') (hu : b.stream = u ++ b'.stream) : Takes u b b' := by
  rwa [← List.append_cancel_right (h.stream.symm.trans hu)]

/-- The counter and the characters still to be read make up the same number. -/
theorem offset_add_length (h : Takes v b b') :
    b'.offset + b'.stream.length = b.offset + b.stream.length := by
  rw [h.offset, h.stream, List.length_append, Nat.add_assoc]

end Takes

end Prepared

/-! ## Buffered passages -/

section Passage

variable {b : Buffered Passage}

theorem stream_passage (b : Buffered Passage) : b.stream = b.pending ++ b.source.rest := rfl

/-- The state after the first character of the stream was read. -/
def advance (b : Buffered Passage) : Buffered Passage where
  source := if b.pending = [] then ⟨b.source.rest.tail⟩ else b.source
  pending := b.pending.tail
  capacity := b.capacity
  offset := b.offset + 1

@[simp] theorem capacity_advance : b.advance.capacity = b.capacity := rfl

@[simp] theorem offset_advance : b.advance.offset = b.offset + 1 := rfl

@[simp] theorem pending_advance : b.advance.pending = b.pending.tail := rfl

@[simp] theorem stream_advance : b.advance.stream = b.stream.tail := by
  rw [stream_passage, stream_passage]
  cases hp : b.pending <;> simp [advance, hp]

/-- Whether the next character waits in the buffer does not matter for a read. -/
theorem next_eq_of_stream (b : Buffered Passage) :
    next b = match b.stream with
      | [] => .ok none b
      | c :: _ => .ok (some c) b.advance := by
  obtain ⟨⟨rest⟩, pending, capacity, offset⟩ := b
  cases pending with
  | cons c pending => rfl
  | nil => cases rest <;> rfl

end Passage

end Buffered

end Rescan
