import Rescan.Proofs.Requests
import Rescan.Proofs.View
import Rescan.Stream.Stack

/-!
# A bounded buffer stands for an unbounded one

A buffered passage answers as the stack of the characters that are still to be read: the capacity of
the buffer shows only in the fault that there is no room. The stack keeps all characters in one place,
and the buffered passage some in its buffer and some in the passage, but no request can tell where
the next one comes from.

## Main statements

* `refines_stack`: up to the first overflow, a session on a buffered passage is one on the stack.
-/

namespace Rescan

variable {σ α : Type}

/-! ## Overflows -/

/-- Whether a fault says that the buffer has no room. -/
def Fault.isOverfull : Fault → Bool
  | .overfull _ _ => true
  | _ => false

/-- Whether an action ended because the buffer had no room. -/
def Outcome.isOverfull : Outcome σ α → Bool
  | .ok _ _ => false
  | .error e _ => e.isOverfull

/-! ## The simulation -/

/-- A buffered passage beside the stack of the characters still to be read. The window does not
matter, and nothing is compared after an overflow. -/
def unbounding : Simulation (Buffered Passage) Stack where
  rel _ b s := s.chars = b.stream
  ended _ _ := True
  failed b s := s.chars = b.stream
  excused e := e.isOverfull = true
  next := by
    rintro w b ⟨chars⟩ h
    change Outcome.Agree _ _ _ (Buffered.next b) (Stack.next ⟨chars⟩)
    dsimp only at h
    rw [Buffered.next_eq_of_stream, h]
    unfold Stack.next
    cases hs : b.stream with
    | nil => exact .ok ⟨hs.symm, fun _ => trivial⟩
    | cons c rest =>
      refine .ok ⟨?_, fun _ => trivial⟩
      rw [Buffered.stream_advance, hs, List.tail_cons]
  putBack := by
    rintro w u b ⟨chars⟩ h
    change Outcome.Agree _ _ _ (Buffered.putBack u b) (Stack.putBack u ⟨chars⟩)
    dsimp only at h
    cases ho : Buffered.putBack u b with
    | ok _ b' =>
      refine .ok ?_
      rw [(Buffered.stream_putBack ho).1, h]
    | error e b' =>
      -- the stack has room for what the buffer refuses
      obtain ⟨-, rfl, -⟩ := Buffered.putBack_eq_error_iff.1 ho
      exact .excused rfl
  fail h := h

theorem unbounding_free : unbounding.Free :=
  fun h => h

/-! ## Sessions -/

/-- What one request keeps: unless it overflows, the results are the same, and the stack holds again
what is still to be read. -/
theorem perform_unbounded {b : Buffered Passage} {s : Stack} (request : Request)
    (h : s.chars = b.stream) (ho : (request.perform.run b).isOverfull = false) :
    (request.perform.run b).result = (request.perform.run s).result ∧
      (request.perform.run s).state.chars = (request.perform.run b).state.stream := by
  have hagree := (unbounding_free.tracks_perform request).agree (s := b) (t := s) h
  have hstrict := hagree.strict fun e b' he hx => by
    rw [he] at ho
    exact Bool.false_ne_true (ho.symm.trans hx)
  refine ⟨hstrict.result_eq, hstrict.state (fun b' s' => s'.chars = b'.stream) ?_ ?_⟩
  · rintro reply b' s' ⟨_, -, hr⟩
    exact hr
  · exact fun b' s' hr => hr

/-- What a session keeps up to its first overflow; the induction is over the requests. -/
theorem forall₂_unbounded (requests : List Request) {b : Buffered Passage} {s : Stack}
    (h : s.chars = b.stream) :
    let bounded := (Scan.trace Request.perform requests b).takeWhile (! ·.isOverfull)
    List.Forall₂ (fun o o' => o.result = o'.result ∧ o'.state.chars = o.state.stream) bounded
      ((Scan.trace Request.perform requests s).take bounded.length) := by
  induction requests generalizing b s with
  | nil => exact .nil
  | cons request rest ih =>
    dsimp only [Scan.trace]
    cases ho : (request.perform.run b).isOverfull with
    | true =>
      -- the comparison ends before the overflow
      rw [List.takeWhile_cons_of_neg (by simp [ho])]
      exact .nil
    | false =>
      rw [List.takeWhile_cons_of_pos (by simp [ho])]
      have hstep := perform_unbounded request h ho
      exact .cons hstep (ih hstep.2)

/-- **Refinement of the stack.** Up to the first request that overflows, every request of a session on
a buffered passage has the same result as on the stack of its characters, and after it the stack holds
the pending characters and then those left of the passage. -/
theorem refines_stack (t : Text) (options : Options) (requests : List Request) :
    let bounded := (Scan.trace Request.perform requests
      (Buffered.start (⟨t⟩ : Passage) options)).takeWhile (! ·.isOverfull)
    let unbounded := (Scan.trace Request.perform requests (⟨t⟩ : Stack)).take bounded.length
    List.Forall₂ (fun o o' => o.result = o'.result ∧
      o'.state.chars = o.state.pending ++ o.state.source.rest) bounded unbounded :=
  forall₂_unbounded requests rfl

end Rescan
