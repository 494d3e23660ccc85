import Rescan.Proofs.Requests

/-!
# Buffers over related sources

A buffer does not look at its source but through its answers. So two sources that answer alike can be
exchanged under a buffer: whatever is done with the buffered sources, what is handed back by the
caller included, has the same results, and leaves the same characters pending and the same count.

## Main definitions

* `SourceSimulation`: a relation between sources that reading respects.
* `Buffered.Alike`, `Outcome.Alike`: the same in everything but the sources, which are related.
* `SourceSimulation.buffered`: the relation lifted to buffered sources, as a free simulation.

## Main statements

* `SourceSimulation.agree_step`: one step of a session on both.
* `SourceSimulation.trace_alike`, `finish_alike`: a whole session.
-/

namespace Rescan

variable {σ τ α β : Type}

/-! ## Related sources -/

/-- A relation between the states of two sources, such that reading goes the same way on both. -/
structure SourceSimulation (σ τ : Type) [Source σ] [Source τ] where
  /-- The states are related. -/
  rel : σ → τ → Prop
  /-- Faults of the first source after which nothing is compared. -/
  excused : Fault → Prop
  /-- Reading gives the same answer, and related states again. -/
  next : ∀ {s t}, rel s t →
    Outcome.Agree excused rel (fun _ => rel) (Source.next.run s) (Source.next.run t)

/-- Two buffered sources that differ in nothing but their sources, which are related. -/
structure Buffered.Alike (rel : σ → τ → Prop) (b : Buffered σ) (c : Buffered τ) : Prop where
  source : rel b.source c.source
  pending : b.pending = c.pending
  capacity : b.capacity = c.capacity
  offset : b.offset = c.offset

/-- The same result, and states that differ in nothing but their sources, which are related. -/
structure Outcome.Alike (rel : σ → τ → Prop) (o : Outcome (Buffered σ) α)
    (o' : Outcome (Buffered τ) α) : Prop where
  result : o.result = o'.result
  state : o.state.Alike rel o'.state

theorem Outcome.Alike.mono {rel weaker : σ → τ → Prop} {o : Outcome (Buffered σ) α}
    {o' : Outcome (Buffered τ) α} (h : o.Alike rel o') (hw : ∀ s t, rel s t → weaker s t) :
    o.Alike weaker o' :=
  ⟨h.result, hw _ _ h.state.source, h.state.pending, h.state.capacity, h.state.offset⟩

namespace SourceSimulation

variable [Source σ] [Source τ] (S : SourceSimulation σ τ) {b : Buffered σ} {c : Buffered τ}

/-! ## The simulation of the buffered sources -/

theorem agree_next (h : b.Alike S.rel c) :
    Outcome.Agree S.excused (Buffered.Alike S.rel) (fun _ => Buffered.Alike S.rel)
      (Buffered.next b) (Buffered.next c) := by
  obtain ⟨source, pending, capacity, offset⟩ := b
  obtain ⟨source', pending', capacity', offset'⟩ := c
  obtain ⟨hs, rfl, rfl, rfl⟩ := h
  cases pending with
  | cons d pending => exact .ok ⟨hs, rfl, rfl, rfl⟩
  | nil =>
    -- the buffer is empty, so both ask their sources
    have hnext := S.next hs
    unfold Buffered.next
    generalize Source.next.run source = o at hnext ⊢
    generalize Source.next.run source' = o' at hnext ⊢
    cases hnext with
    | @ok d _ _ h => cases d <;> exact .ok ⟨h, rfl, rfl, rfl⟩
    | error h => exact .error ⟨h, rfl, rfl, rfl⟩
    | excused h => exact .excused h

theorem agree_putBack (t : Text) (h : b.Alike S.rel c) :
    Outcome.Agree S.excused (Buffered.Alike S.rel) (fun _ => Buffered.Alike S.rel)
      (Buffered.putBack t b) (Buffered.putBack t c) := by
  obtain ⟨source, pending, capacity, offset⟩ := b
  obtain ⟨source', pending', capacity', offset'⟩ := c
  obtain ⟨hs, rfl, rfl, rfl⟩ := h
  unfold Buffered.putBack
  dsimp only
  -- there is room in both or in neither, since they differ in nothing that is compared
  split
  · exact .error ⟨hs, rfl, rfl, rfl⟩
  · exact .ok ⟨hs, rfl, rfl, rfl⟩

/-- The buffered sources, for which the window does not matter. -/
def buffered : Simulation (Buffered σ) (Buffered τ) where
  rel _ := Buffered.Alike S.rel
  ended _ _ := True
  failed := Buffered.Alike S.rel
  excused := S.excused
  next h := (S.agree_next h).mono fun _ _ _ h' => ⟨h', fun _ => trivial⟩
  putBack h := S.agree_putBack _ h
  fail h := h

theorem buffered_free : S.buffered.Free :=
  fun h => h

/-! ## Sessions -/

/-- One step of a session, which may also read behind the back of the buffer. -/
theorem agree_step (step : Step) (h : b.Alike S.rel c) :
    Outcome.Agree S.excused (Buffered.Alike S.rel) (fun _ => Buffered.Alike S.rel)
      (step.perform.run b) (step.perform.run c) := by
  cases step with
  | ask request =>
    have hagree := (Simulation.Free.tracks_perform S.buffered_free request).agree (s := b) (t := c) h
    exact hagree.mono fun _ _ _ ⟨_, _, h'⟩ => h'
  | inspect => exact .ok h
  | pull =>
    -- behind the backs of the buffers their sources are asked
    obtain ⟨source, pending, capacity, offset⟩ := b
    obtain ⟨source', pending', capacity', offset'⟩ := c
    obtain ⟨hs, rfl, rfl, rfl⟩ := h
    have hnext := S.next hs
    simp only [Step.perform, Scan.run_bind, Buffered.onSource]
    generalize Source.next.run source = o at hnext ⊢
    generalize Source.next.run source' = o' at hnext ⊢
    cases hnext with
    | ok h => exact .ok ⟨h, rfl, rfl, rfl⟩
    | error h => exact .error ⟨h, rfl, rfl, rfl⟩
    | excused h => exact .excused h

/-- Where no fault is excused, one step ends alike. -/
theorem step_alike (hstrict : ∀ e, ¬ S.excused e) (step : Step) (h : b.Alike S.rel c) :
    (step.perform.run b).Alike S.rel (step.perform.run c) := by
  have hagree := (S.agree_step step h).strict fun e _ _ => hstrict e
  exact ⟨hagree.result_eq, hagree.state _ (fun _ _ _ h' => h') fun _ _ h' => h'⟩

/-- Where no fault is excused, every step of a session ends alike. -/
theorem trace_alike (hstrict : ∀ e, ¬ S.excused e) (steps : List Step) (h : b.Alike S.rel c) :
    List.Forall₂ (Outcome.Alike S.rel) (Scan.trace Step.perform steps b)
      (Scan.trace Step.perform steps c) := by
  apply Scan.forall₂_trace fun _ b c => b.Alike S.rel c
  · intro step rest b c h
    have halike := S.step_alike hstrict step h
    exact ⟨halike, halike.state⟩
  · exact h

/-- Where no fault is excused, a session leaves states that are alike; the induction is over the
steps. -/
theorem finish_alike (hstrict : ∀ e, ¬ S.excused e) (steps : List Step) (h : b.Alike S.rel c) :
    (Scan.finish Step.perform steps b).Alike S.rel (Scan.finish Step.perform steps c) := by
  induction steps generalizing b c with
  | nil => exact h
  | cons step rest ih => exact ih (S.step_alike hstrict step h).state

end SourceSimulation

end Rescan
