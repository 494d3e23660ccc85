import Rescan.Source.Basic

/-!
# Streams that take characters back

A stream is a source to which characters can be handed back, to be read again before everything
else. This is all that recognizing a token needs: read on until the token has ended, and hand back
what does not belong to it.

## Main definitions

* `CharStream`: sources with `putBack`.
* `CharStream.handBack`, `CharStream.peek`: handing back an answer, and looking ahead by one.
-/

namespace Rescan

/-- Sources that take characters back. -/
class CharStream (σ : Type) extends Source σ where
  /-- Hands a text back, so that its characters are read next, in order. -/
  putBack : Text → Scan σ Unit
  /-- A text that was handed back adds at most its length to what is to be read. -/
  left_putBack : ∀ {t s s'}, (putBack t).run s = .ok () s' → left s' ≤ left s + t.length
  /-- The first character of a text that was handed back is the next one. -/
  next_putBack : ∀ {c t s s'}, (putBack (c :: t)).run s = .ok () s' →
    ∃ s'', next.run s' = .ok (some c) s''

namespace CharStream

variable {σ : Type} [CharStream σ]

/-- Hands the answer of a read back. An end of input is nothing that could be handed back. -/
def handBack : Option Char → Scan σ Unit
  | none => pure ()
  | some c => putBack [c]

/-- The next character, left where it is. -/
def peek : Scan σ (Option Char) := do
  let c ← Source.next
  handBack c
  return c

/-- Whatever is done between a read and handing its answer back, if it is steady then so is the
whole. -/
theorem left_handBack_le {c : Option Char} {s s₁ s₂ s' : σ} (hn : Source.next.run s = .ok c s₁)
    (hle : Source.left s₂ ≤ Source.left s₁) (hu : (handBack c).run s₂ = .ok () s') :
    Source.left s' ≤ Source.left s := by
  cases c with
  | none =>
    cases hu
    exact Nat.le_trans hle (Source.left_none hn)
  | some c =>
    have := Source.left_some hn
    have : Source.left s' ≤ Source.left s₂ + 1 := left_putBack hu
    omega

/-- Looking ahead succeeds exactly when a character is read and can be handed back. -/
theorem peek_eq_ok_iff {s s' : σ} {c : Option Char} :
    peek.run s = .ok c s' ↔
      ∃ s₁, Source.next.run s = .ok c s₁ ∧ (handBack c).run s₁ = .ok () s' := by
  constructor
  · intro h
    obtain ⟨c, s₁, h₁, h⟩ := Scan.run_bind_eq_ok_iff.1 h
    obtain ⟨_, h₂, rfl⟩ := Scan.run_bind_pure_eq_ok_iff.1 h
    exact ⟨s₁, h₁, h₂⟩
  · intro h
    obtain ⟨s₁, h₁, h₂⟩ := h
    exact Scan.run_bind_eq_ok_iff.2 ⟨c, s₁, h₁, Scan.run_bind_pure_eq_ok_iff.2 ⟨(), h₂, rfl⟩⟩

theorem steady_peek : Scan.Steady (peek : Scan σ (Option Char)) := by
  intro s s' c h
  obtain ⟨s₁, h₁, h₂⟩ := peek_eq_ok_iff.1 h
  exact left_handBack_le h₁ (Nat.le_refl _) h₂

/-- The character that was looked at is the next one. -/
theorem next_peek {s s' : σ} {c : Char} (h : peek.run s = .ok (some c) s') :
    ∃ s'', Source.next.run s' = .ok (some c) s'' := by
  obtain ⟨s₁, -, hback⟩ := peek_eq_ok_iff.1 h
  exact next_putBack hback

/-- Reading what was looked at lowers what is to be read. -/
theorem left_next_peek {s s₁ s₂ : σ} {c : Char} {d : Option Char}
    (hpeek : peek.run s = .ok (some c) s₁) (hnext : Source.next.run s₁ = .ok d s₂) :
    Source.left s₂ < Source.left s := by
  obtain ⟨s', hc⟩ := next_peek hpeek
  rw [hnext] at hc
  cases hc
  exact Nat.lt_of_lt_of_le (Source.left_some hnext) (steady_peek hpeek)

end CharStream

end Rescan
