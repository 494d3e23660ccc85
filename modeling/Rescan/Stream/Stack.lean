import Rescan.Stream.Basic

/-!
# Stacks of characters

The plainest stream: a text from whose front characters are taken, and to whose front they are
given back. It has no bound and does not count.
-/

namespace Rescan

/-- A text, read from its front and extended at its front. -/
structure Stack where
  /-- The characters to be read, the next one first. -/
  chars : Text
deriving DecidableEq, Repr

namespace Stack

/-- Takes the first character. -/
def next (s : Stack) : Outcome Stack (Option Char) :=
  match s.chars with
  | [] => .ok none s
  | c :: chars => .ok (some c) ⟨chars⟩

/-- Puts a text in front; there is always room. -/
def putBack (t : Text) (s : Stack) : Outcome Stack Unit :=
  .ok () ⟨t ++ s.chars⟩

instance : CharStream Stack where
  next := ⟨next⟩
  left s := s.chars.length
  left_some {s s' c} h := by
    obtain ⟨chars⟩ := s
    cases chars with
    | nil => simp [next] at h
    | cons d rest =>
      simp only [next, Outcome.ok.injEq] at h
      simp [← h.2]
  left_none {s s'} h := by
    obtain ⟨chars⟩ := s
    cases chars with
    | nil =>
      simp only [next, Outcome.ok.injEq] at h
      simp [← h.2]
    | cons d rest => simp [next] at h
  putBack t := ⟨putBack t⟩
  left_putBack {t s s'} h := by
    simp only [putBack, Outcome.ok.injEq] at h
    simp [← h.2, Nat.add_comm]
  next_putBack {c t s s'} h := by
    simp only [putBack, Outcome.ok.injEq, true_and] at h
    subst h
    exact ⟨⟨t ++ s.chars⟩, rfl⟩

end Stack

end Rescan
