import Rescan.Proofs.Room

/-!
# Streams with a log

What is true at every point of a run cannot be seen from how the run ended. A stream with a log
remembers every state that reading and handing back have left behind. Nothing that is done with the
stream depends on the log, so the run with a log is the run itself, and the log shows all of it.

## Main definitions

* `Logged`: a stream and the states it has been in.
* `Buffered.withCapacity`: the same buffer with room for more or fewer characters.
* `Simulation.logging`: a small buffer beside a larger one with a log. As long as the small buffer does
  not overflow, the larger one never keeps more than fits into the small one.
-/

namespace Rescan

variable {σ α : Type}

/-! ## Logs -/

/-- A stream with the states it has been in, the last one first. -/
structure Logged (σ : Type) where
  /-- The stream as it is. -/
  stream : σ
  /-- The states that reading and handing back left behind. -/
  visited : List σ := []

namespace Logged

/-- The stream is now in this state, which goes into the log. -/
def visit (l : Logged σ) (s : σ) : Logged σ where
  stream := s
  visited := s :: l.visited

/-- Performs an action on the stream and enters the state after it in the log. -/
def log (x : Scan σ α) : Scan (Logged σ) α where
  run l := (x.run l.stream).mapState l.visit

instance [CharStream σ] : CharStream (Logged σ) where
  next := log Source.next
  left l := Source.left l.stream
  left_some h := by
    obtain ⟨s, hs, rfl⟩ := Outcome.mapState_eq_ok_iff.1 h
    exact Source.left_some hs
  left_none h := by
    obtain ⟨s, hs, rfl⟩ := Outcome.mapState_eq_ok_iff.1 h
    exact Source.left_none hs
  putBack t := log (CharStream.putBack t)
  left_putBack h := by
    obtain ⟨s, hs, rfl⟩ := Outcome.mapState_eq_ok_iff.1 h
    exact CharStream.left_putBack hs
  next_putBack {c t l l'} h := by
    obtain ⟨s, hs, rfl⟩ := Outcome.mapState_eq_ok_iff.1 h
    obtain ⟨s', hs'⟩ := CharStream.next_putBack hs
    exact ⟨(l.visit s).visit s', Outcome.mapState_eq_ok_iff.2 ⟨s', hs', rfl⟩⟩

end Logged

/-! ## Capacities -/

namespace Buffered

/-- The same buffer with another capacity. -/
def withCapacity (m : Nat) (b : Buffered σ) : Buffered σ :=
  { b with capacity := m }

theorem Within.withCapacity_eq {n : Nat} {b : Buffered σ} (h : b.Within n) :
    b.withCapacity n = b := by
  rw [← h.capacity_eq]
  rfl

/-- Reading does not depend on the capacity. -/
theorem next_withCapacity [Source σ] (m : Nat) (b : Buffered σ) :
    next (b.withCapacity m) = (next b).mapState (withCapacity m) := by
  obtain ⟨source, pending, capacity, offset⟩ := b
  cases pending with
  | cons c pending => rfl
  | nil =>
    unfold next withCapacity
    dsimp only
    cases Source.next.run source with
    | ok c source => cases c <;> rfl
    | error e source => rfl

end Buffered

/-! ## A small buffer beside a larger one -/

/-- A buffer of capacity `n`, and the same buffer with the capacity `m` and a log of which no state had
more than `n` characters pending. -/
structure Buffered.LoggedWithin (n m : Nat) (b : Buffered σ) (l : Logged (Buffered σ)) : Prop where
  within : b.Within n
  stream_eq : l.stream = b.withCapacity m
  pending_le : ∀ v ∈ l.visited, v.pending.length ≤ n

/-- One entry more in the log. -/
theorem Buffered.LoggedWithin.visit {n m : Nat} {b b' : Buffered σ} {l : Logged (Buffered σ)}
    (h : b.LoggedWithin n m l) (h' : b'.Within n) :
    b'.LoggedWithin n m (l.visit (b'.withCapacity m)) := by
  refine ⟨h', rfl, fun v hv => ?_⟩
  rcases List.mem_cons.1 hv with rfl | hv
  · exact h'.pending_le
  · exact h.pending_le v hv

namespace Simulation

variable [Source σ] [Unbuffered σ]

/-- A buffer beside a larger one with a log. Nothing is compared after an overflow of the smaller
one. -/
def logging {n m : Nat} (hnm : n ≤ m) : Simulation (Buffered σ) (Logged (Buffered σ)) where
  rel _ := Buffered.LoggedWithin n m
  ended _ _ := True
  failed := Buffered.LoggedWithin n m
  excused e := e.isOverfull = true
  next := by
    intro w b l h
    -- reading makes room, whatever it ends in
    have hfits := Scan.Fits.next (Nat.zero_le n) h.within
    change (Buffered.next b).Fits n at hfits
    change Outcome.Agree _ _ _ (Buffered.next b) ((Buffered.next l.stream).mapState l.visit)
    rw [h.stream_eq, Buffered.next_withCapacity]
    cases hb : Buffered.next b with
    | ok c b' =>
      rw [hb] at hfits
      exact .ok ⟨h.visit hfits.within, fun _ => trivial⟩
    | error e b' =>
      rw [hb] at hfits
      exact .error (h.visit hfits.within)
  putBack := by
    intro w u b l h
    change Outcome.Agree _ _ _ (Buffered.putBack u b)
      ((Buffered.putBack u l.stream).mapState l.visit)
    cases hb : Buffered.putBack u b with
    | error e b' =>
      -- what the smaller buffer refuses is not compared
      obtain ⟨-, rfl, -⟩ := Buffered.putBack_eq_error_iff.1 hb
      exact .excused rfl
    | ok _ b' =>
      -- what fits into the smaller buffer fits into the larger one
      obtain ⟨hroom, rfl⟩ := Buffered.putBack_eq_ok_iff.1 hb
      rw [h.within.capacity_eq] at hroom
      have hput : Buffered.putBack u (b.withCapacity m) = _ :=
        Buffered.putBack_eq_ok_iff.2 ⟨Nat.le_trans hroom hnm, rfl⟩
      rw [h.stream_eq, hput]
      refine .ok (h.visit ⟨h.within.capacity_eq, ?_⟩)
      rw [List.length_append]
      omega
  fail h := h

end Simulation

end Rescan
