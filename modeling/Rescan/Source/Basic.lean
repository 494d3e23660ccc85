import Rescan.Scan

/-!
# Sources of characters

A source hands out characters one at a time and cannot take one back. It may answer that the input
has ended and still have more to give later: an end is an answer, not a state.

Every source comes with a bound on the characters it can still hand out. Each character lowers the
bound and an end does not raise it, so a loop that goes on only after a character ends. A supply of
characters that never ends is no source, but it is one when it is cut off after any number of answers;
a loop that ends has asked for no more than some number of them.
-/

namespace Rescan

/-- States from which characters can be read, front to back. -/
class Source (σ : Type) where
  /-- The next character, or `none` at an end of input. -/
  next : Scan σ (Option Char)
  /-- A bound on the number of characters still to come. -/
  left : σ → Nat
  /-- A character lowers the bound. -/
  left_some : ∀ {s s' c}, next.run s = .ok (some c) s' → left s' < left s
  /-- An end does not raise it. -/
  left_none : ∀ {s s'}, next.run s = .ok none s' → left s' ≤ left s

variable {σ α β : Type} [Source σ]

/-! ## Actions that do not lengthen the input -/

/-- An action is *steady* when its success leaves no more to be read than there was. -/
def Scan.Steady (x : Scan σ α) : Prop :=
  ∀ ⦃s s' a⦄, x.run s = .ok a s' → Source.left s' ≤ Source.left s

namespace Scan.Steady

theorem pure (a : α) : Steady (Pure.pure a : Scan σ α) := by
  intro s s' b h
  rw [Scan.run_pure] at h
  cases h
  exact Nat.le_refl _

theorem fail (e : Fault) : Steady (Scan.fail e : Scan σ α) := by
  intro s s' b h
  rw [Scan.run_fail] at h
  cases h

theorem bind {x : Scan σ α} {f : α → Scan σ β} (hx : Steady x) (hf : ∀ a, Steady (f a)) :
    Steady (x >>= f) := by
  intro s s'' b h
  obtain ⟨a, s', h₁, h₂⟩ := Scan.run_bind_eq_ok_iff.1 h
  exact Nat.le_trans (hf a h₂) (hx h₁)

theorem next : Steady (Source.next : Scan σ (Option Char)) := by
  intro s s' a h
  cases a with
  | none => exact Source.left_none h
  | some c => exact Nat.le_of_lt (Source.left_some h)

end Scan.Steady

end Rescan
