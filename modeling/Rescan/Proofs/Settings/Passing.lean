import Rescan.Proofs.Plain
import Rescan.Settings.Reader

/-!
# Looking before reading

The reader of settings passes over blanks by looking at every character before it reads it, where a
recognizer reads ahead and hands back only the character that ends a span. As long as there is room for
one character a look leaves no trace, so in the end both have done the same. It is only on the way that
they differ, because looking hands every character back once.

## Main definitions

* `CharStream.Rereads`: states in which a look leaves no trace.

## Main statements

* `Rereads.passOverFrom_eq_spanFrom`: where a look leaves no trace, passing over characters is
  reading them as a span.
* `Stack.passOver_eq_span`, `Buffered.passOver_run_eq_span`: so it is on a stack, and in a buffer
  with room for a character.
-/

namespace Rescan

open CharStream Settings

/-! ## Looks without a trace -/

/-- From these states, reading leads to such states again, and what is read can be handed back and read
once more without a trace. -/
def CharStream.Rereads {σ : Type} [CharStream σ] (holds : σ → Prop) : Prop :=
  ∀ ⦃s s₁ c⦄, holds s → Source.next.run s = .ok (some c) s₁ →
    holds s₁ ∧ ∃ s₂, (putBack [c]).run s₁ = .ok () s₂ ∧ Source.next.run s₂ = .ok (some c) s₁

/-- Passing over characters and reading a span go on alike with every character; the induction follows
the span. -/
theorem CharStream.Rereads.passOverFrom_eq_spanFrom {σ : Type} [CharStream σ] {holds : σ → Prop}
    (h : Rereads holds) (p : Char → Bool) {s : σ} (hs : holds s) : passOverFrom p s = spanFrom p s := by
  fun_induction spanFrom p s with
  | case1 s c s₁ hnext hp ih =>
    -- a look, and the read that it announces
    obtain ⟨hs₁, s₂, hback, hagain⟩ := h hs hnext
    have hpeek : peek.run s = .ok (some c) s₂ := peek_eq_ok_iff.2 ⟨s₁, hnext, hback⟩
    simp only [passOverFrom_eq p s, hpeek, Outcome.bind_ok, hp, if_true, hagain, ih hs₁]
    rfl
  | case2 s c s₁ hnext hp =>
    -- the look at the character that is left
    obtain ⟨-, s₂, hback, -⟩ := h hs hnext
    have hpeek : peek.run s = .ok (some c) s₂ := peek_eq_ok_iff.2 ⟨s₁, hnext, hback⟩
    simp only [passOverFrom_eq p s, hpeek, Outcome.bind_ok, hp, hback]
    rfl
  | case3 s s₁ hnext =>
    have hpeek : peek.run s = .ok none s₁ := peek_eq_ok_iff.2 ⟨s₁, hnext, rfl⟩
    rw [passOverFrom_eq, hpeek]
    rfl
  | case4 s e s₁ hnext =>
    rw [passOverFrom_eq, peek, Scan.run_bind, hnext]
    rfl

/-! ## Stacks -/

namespace Stack

/-- What was taken from a stack is put back where it was. -/
theorem rereads : Rereads fun _ : Stack => True := by
  intro s s₁ c _ hnext
  have hchars : c :: s₁.chars = s.chars := (next_eq_some hnext).symm
  have hback : (CharStream.putBack [c]).run s₁ = .ok () s :=
    congrArg (fun chars => Outcome.ok () (Stack.mk chars)) hchars
  exact ⟨trivial, s, hback, hnext⟩

theorem passOver_eq_span (p : Char → Bool) : (passOver p : Scan Stack Text) = span p :=
  congrArg Scan.mk (funext fun _ => rereads.passOverFrom_eq_spanFrom p trivial)

end Stack

/-! ## Buffers -/

namespace Buffered

variable {σ : Type} [Source σ]

/-- In a buffer with a capacity there is room for what was just read. -/
theorem rereads :
    Rereads fun b : Buffered σ => 1 ≤ b.capacity ∧ b.pending.length ≤ b.capacity := by
  intro b b₁ c hb hnext
  obtain ⟨hcapacity, hpending⟩ := hb
  -- either way the character has been counted, so the count does not stop at zero
  rcases next_eq_some hnext with ⟨t, ht, rfl⟩ | ⟨hnil, source, -, rfl⟩
  · have hlength : t.length + 1 ≤ b.capacity := by simpa [ht] using hpending
    exact ⟨⟨hcapacity, Nat.le_of_succ_le hlength⟩, _, putBack_eq_ok_iff.2 ⟨hlength, rfl⟩, rfl⟩
  · have hroom : b.pending.length + 1 ≤ b.capacity := by simpa [hnil] using hcapacity
    exact ⟨⟨hcapacity, hpending⟩, _, putBack_eq_ok_iff.2 ⟨hroom, rfl⟩, rfl⟩

/-- With a capacity for one character and no more pending than the capacity, looking before reading has
the result of reading ahead and leaves the same state. -/
theorem passOver_run_eq_span (p : Char → Bool) {b : Buffered σ} (hcapacity : 1 ≤ b.capacity)
    (hpending : b.pending.length ≤ b.capacity) : (passOver p).run b = (span p).run b :=
  rereads.passOverFrom_eq_spanFrom p ⟨hcapacity, hpending⟩

end Buffered

end Rescan
