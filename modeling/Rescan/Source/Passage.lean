import Rescan.Source.Basic
import Rescan.Text.Utf8

/-!
# Sources in memory

A `Passage` is a text that is read from its front. A `Feed` is a prepared list of answers: it can
report an end between two characters and go on afterwards.
-/

namespace Rescan

/-! ## Passages -/

/-- A text that is read from its front. -/
structure Passage where
  /-- The text that has not been handed out yet. -/
  rest : Text
deriving DecidableEq, Repr

namespace Passage

/-- The first character of what is left. -/
def next (p : Passage) : Outcome Passage (Option Char) :=
  match p.rest with
  | [] => .ok none p
  | c :: rest => .ok (some c) ⟨rest⟩

/-- The number of bytes in the encoding of what is left. -/
def byteSize (p : Passage) : Nat :=
  (Utf8.encode p.rest).length

instance : Source Passage where
  next := ⟨next⟩
  left p := p.rest.length
  left_some {p p' c} h := by
    obtain ⟨rest⟩ := p
    cases rest with
    | nil => simp [next] at h
    | cons d rest =>
      simp only [next, Outcome.ok.injEq] at h
      simp [← h.2]
  left_none {p p'} h := by
    obtain ⟨rest⟩ := p
    cases rest with
    | nil =>
      simp only [next, Outcome.ok.injEq] at h
      simp [← h.2]
    | cons d rest => simp [next] at h

end Passage

/-! ## Feeds -/

/-- A prepared list of answers; after the last of them every answer is an end. -/
structure Feed where
  /-- The answers still to be given: a character, or `none` for an end that happens once. -/
  answers : List (Option Char)
deriving DecidableEq, Repr

namespace Feed

/-- The next prepared answer. -/
def next (f : Feed) : Outcome Feed (Option Char) :=
  match f.answers with
  | [] => .ok none f
  | answer :: rest => .ok answer ⟨rest⟩

/-- The characters up to the next end. -/
def beforeEnd (f : Feed) : Text :=
  (f.answers.takeWhile Option.isSome).filterMap id

instance : Source Feed where
  next := ⟨next⟩
  left f := f.answers.length
  left_some {f f' c} h := by
    obtain ⟨answers⟩ := f
    cases answers with
    | nil => simp [next] at h
    | cons a rest =>
      simp only [next, Outcome.ok.injEq] at h
      simp [← h.2]
  left_none {f f'} h := by
    obtain ⟨answers⟩ := f
    cases answers <;>
    · simp only [next, Outcome.ok.injEq] at h
      simp [← h.2]

end Feed

end Rescan
