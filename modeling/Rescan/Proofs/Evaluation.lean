import Rescan.Proofs.Room

/-!
# Evaluating on the stack

What a recognizer does on a buffered passage can be found out on the stack of the characters that are
still to be read, if there is room for what it hands back. The answer and the characters left are the
same, and the counter grows by the characters that are gone, also when the recognizer ends in a fault.

## Main definitions

* `evaluating`: a buffered passage beside its stack, with an account of what was taken.

## Main statements

* `run_of_stack_ok`, `run_of_stack_error`: from a run on the stack to one on the buffered passage.
* `stack_of_run_ok`, `stack_of_run_error`: from a run on the buffered passage to one on the stack.
-/

namespace Rescan

open Buffered

/-! ## The simulation -/

/-- A buffered passage beside the stack of the characters still to be read. The window is what was
taken off the stream since `b₀`. -/
def evaluating (b₀ : Buffered Passage) : Simulation (Buffered Passage) Stack where
  rel w b s := s.chars = b.stream ∧ b₀.Takes w b
  ended _ _ := True
  failed b s := s.chars = b.stream ∧ ∃ w, b₀.Takes w b
  excused e := e.isOverfull = true
  next := by
    rintro w b s ⟨hs, hw⟩
    have hagree := (unbounding.next (w := w) hs).left
      (p := fun c b' => b₀.Takes (w ++ c.toList) b') (q := fun b' => ∃ w, b₀.Takes w b')
    apply (hagree ?_ ?_).mono
    · rintro c b' s' ⟨⟨hs', -⟩, hw'⟩
      exact ⟨⟨hs', hw'⟩, fun _ => trivial⟩
    · exact fun c b' hn => hw.next hn
    · -- a passage does not fail
      intro e b' hn
      change Buffered.next b = _ at hn
      rw [next_eq_of_stream] at hn
      split at hn <;> cases hn
  putBack := by
    rintro w u b s ⟨hs, hw⟩
    have hagree := (unbounding.putBack (w := w) (u := u) hs).left
      (p := fun _ b' => b₀.Takes w b') (q := fun b' => ∃ w, b₀.Takes w b')
    apply hagree
    · exact fun _ b' hp => hw.putBack hp
    · intro e b' hp
      obtain ⟨-, -, rfl⟩ := putBack_eq_error_iff.1 hp
      exact ⟨w ++ u, hw⟩
  fail h := ⟨h.1, _, h.2⟩

/-- At the beginning nothing was taken. -/
theorem evaluating_start (b : Buffered Passage) : (evaluating b).rel [] b ⟨b.stream⟩ :=
  ⟨rfl, .refl b⟩

/-! ## Runs -/

section Run

variable {α : Type} {x : Scan (Buffered Passage) α} {y : Scan Stack α} {spent : α → Text → Prop}
  {b : Buffered Passage} {room : Nat} (ht : (evaluating b).Tracks [] spent x y)

include ht

/-- What succeeds on the buffered passage succeeds on the stack. -/
theorem stack_of_run_ok {a : α} {b' : Buffered Passage} (h : x.run b = .ok a b') :
    ∃ s, y.run ⟨b.stream⟩ = .ok a s ∧ s.chars = b'.stream ∧ ∃ v, b.Takes v b' := by
  obtain ⟨s, hrun, v, -, hs, hv⟩ := (ht.agree (evaluating_start b)).exists_of_ok h
  exact ⟨s, hrun, hs, v, hv⟩

/-- What fails on the buffered passage fails alike on the stack, unless there was no room. -/
theorem stack_of_run_error {e : Fault} {b' : Buffered Passage} (h : x.run b = .error e b')
    (he : e.isOverfull = false) :
    ∃ s, y.run ⟨b.stream⟩ = .error e s ∧ s.chars = b'.stream ∧ ∃ v, b.Takes v b' := by
  have hnot : ¬ (evaluating b).excused e := fun hover => Bool.false_ne_true (he.symm.trans hover)
  exact (ht.agree (evaluating_start b)).exists_of_error h hnot

/-- What does not overflow goes on the buffered passage as it goes on the stack. -/
theorem agree_stack_of_isOverfull_eq (ho : (x.run b).isOverfull = false) :
    Outcome.Agree (fun _ => False) (evaluating b).failed
      (fun _ b' s => s.chars = b'.stream ∧ ∃ v, b.Takes v b') (x.run b) (y.run ⟨b.stream⟩) := by
  have hstrict := (ht.agree (evaluating_start b)).strict fun e b' he hx => by
    rw [he] at ho
    exact Bool.false_ne_true (ho.symm.trans hx)
  apply hstrict.mono
  rintro a b' s ⟨v, -, hs, hv⟩
  exact ⟨hs, v, hv⟩

variable (hx : x.Fits room) (hroom : room ≤ b.capacity) (hb : b.pending.length ≤ b.capacity)
  {s : Stack}

include hx hroom hb

theorem agree_stack : Outcome.Agree (fun _ => False) (evaluating b).failed
    (fun _ b' s => s.chars = b'.stream ∧ ∃ v, b.Takes v b') (x.run b) (y.run ⟨b.stream⟩) :=
  agree_stack_of_isOverfull_eq ht (hx hroom ⟨rfl, hb⟩).isOverfull_eq

/-- What succeeds on the stack succeeds on the buffered passage. -/
theorem run_of_stack_ok {a : α} (hy : y.run ⟨b.stream⟩ = .ok a s) :
    ∃ b', x.run b = .ok a b' ∧ b'.stream = s.chars ∧ ∃ v, b.Takes v b' := by
  obtain ⟨b', hrun, hs, hv⟩ := (agree_stack ht hx hroom hb).exists_of_ok_right hy
  exact ⟨b', hrun, hs.symm, hv⟩

/-- What fails on the stack fails alike on the buffered passage. -/
theorem run_of_stack_error {e : Fault} (hy : y.run ⟨b.stream⟩ = .error e s) :
    ∃ b', x.run b = .error e b' ∧ b'.stream = s.chars ∧ ∃ v, b.Takes v b' := by
  obtain ⟨b', hrun, hs, hv⟩ := (agree_stack ht hx hroom hb).exists_of_error_right hy
  exact ⟨b', hrun, hs.symm, hv⟩

end Run

end Rescan
