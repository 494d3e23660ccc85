import Rescan.Proofs.Room
import Rescan.Source.Bytes

/-!
# The capacity of the buffer

Whatever is done with a buffered source, its buffer keeps to its capacity, also when an action ends in
a fault. Characters may be handed back that were never read, several texts may wait one before the
other, and the source may be read behind the back of the buffer; the recognizers hand back what they
like. A text is taken back as a whole or not at all. If it is, it is read again before the source is
asked for another character, and behind it everything is as it was.

## Main definitions

* `Buffered.keeping`: one run beside itself, whose buffer keeps to its capacity.
* `Request.Returns`: the requests that hand a text back.

## Main statements

* `Buffered.within_finish`: after any session the buffer keeps to its capacity.
* `Buffered.forall₂_reads`: what is pending is read in order, and the source is not touched.
* `capacity_kept`: both, with handing back as a whole or not at all.
-/

namespace Rescan

open Buffered

variable {σ : Type} [Source σ]

namespace Buffered

variable {n : Nat} {b : Buffered σ}

/-! ## Keeping to the capacity -/

/-- One run of a buffered source beside itself, with a buffer that keeps to the capacity `n`, also
after a fault. -/
def keeping (n : Nat) : Simulation (Buffered σ) (Buffered σ) where
  rel _ b b' := b = b' ∧ b.Within n
  ended _ _ := True
  failed b b' := b = b' ∧ b.Within n
  excused _ := False
  next := by
    rintro w b _ ⟨rfl, h⟩
    apply Outcome.Agree.self
    · intro c b' hb
      obtain ⟨hc, hle, -⟩ := pending_next hb
      exact ⟨⟨rfl, hc.trans h.capacity_eq, Nat.le_trans hle h.pending_le⟩, fun _ => trivial⟩
    · -- a fault of the source leaves the buffer alone
      intro e b' hb
      obtain ⟨-, source, -, rfl⟩ := next_eq_error hb
      exact ⟨rfl, h.capacity_eq, h.pending_le⟩
  putBack := by
    rintro w u b _ ⟨rfl, h⟩
    apply Outcome.Agree.self
    · intro _ b' hb
      obtain ⟨hroom, rfl⟩ := putBack_eq_ok_iff.1 hb
      have hlen : (u ++ b.pending).length ≤ n := by
        rw [List.length_append, Nat.add_comm, ← h.capacity_eq]
        exact hroom
      exact ⟨rfl, h.capacity_eq, hlen⟩
    · intro e b' hb
      obtain ⟨-, -, rfl⟩ := putBack_eq_error_iff.1 hb
      exact ⟨rfl, h⟩
  fail h := h

theorem keeping_free : (keeping n : Simulation (Buffered σ) (Buffered σ)).Free :=
  fun h => h

/-- What one step keeps, whether it ends in a reply or in a fault. -/
theorem within_step (step : Step) (h : b.Within n) : (step.perform.run b).state.Within n := by
  cases step with
  | ask request =>
    have hagree := (keeping_free.tracks_perform request).agree (s := b) (t := b) ⟨rfl, h⟩
    have hstrict := hagree.strict fun _ _ _ he => he
    apply hstrict.state fun b' _ => b'.Within n
    · rintro reply b' _ ⟨_, -, -, h'⟩
      exact h'
    · exact fun b' _ h' => h'.2
  | inspect => exact h
  | pull =>
    -- the buffer is not looked at
    simp only [Step.perform, Scan.run_bind, onSource]
    cases Source.next.run b.source with
    | ok c source => exact ⟨h.capacity_eq, h.pending_le⟩
    | error e source => exact ⟨h.capacity_eq, h.pending_le⟩

/-- What a whole session keeps; the induction is over its steps. -/
theorem within_finish (steps : List Step) (h : b.Within n) :
    (Scan.finish Step.perform steps b).Within n := by
  induction steps generalizing b with
  | nil => exact h
  | cons step rest ih => exact ih (within_step step h)

omit [Source σ] in
/-- An empty buffer keeps to any capacity. -/
theorem within_start (source : σ) (options : Options) :
    (start source options).Within options.capacity :=
  ⟨rfl, Nat.zero_le _⟩

/-! ## Reading what is pending -/

/-- As many reads as a pending text has characters return them in order, and none of them touches the
source. -/
theorem forall₂_reads {t u : Text} (h : b.pending = t ++ u) :
    List.Forall₂ (fun c o => o.result = .ok (.char (some c)) ∧ o.state.source = b.source) t
        (Scan.trace Request.perform (List.replicate t.length .next) b) ∧
      Scan.finish Request.perform (List.replicate t.length .next) b =
        { b with pending := u, offset := b.offset + t.length } := by
  induction t generalizing b with
  | nil =>
    obtain ⟨source, pending, capacity, offset⟩ := b
    obtain rfl : pending = u := h
    exact ⟨.nil, rfl⟩
  | cons c t ih =>
    have hnext : Request.next.perform.run b =
        .ok (.char (some c)) { b with pending := t ++ u, offset := b.offset + 1 } := by
      have hc : Source.next.run b = _ := next_of_pending h
      simp [Request.perform, hc]
    obtain ⟨hreads, hfinish⟩ := ih (b := { b with pending := t ++ u, offset := b.offset + 1 }) rfl
    rw [List.length_cons, List.replicate_succ, Scan.trace, Scan.finish, hnext]
    refine ⟨.cons ⟨rfl, rfl⟩ hreads, hfinish.trans ?_⟩
    rw [Nat.add_assoc, Nat.add_comm 1]

end Buffered

/-! ## Handing back -/

/-- The requests that hand a text back. -/
inductive Request.Returns : Request → Text → Prop where
  /-- The answer of a read; an end of input is no text. -/
  | handBack (c : Option Char) : Returns (.handBack c) c.toList
  | putBack (t : Text) : Returns (.putBack t) t

/-- However a text is handed back, the buffer takes it in the same way, if it keeps to its
capacity. -/
theorem Request.Returns.run_eq {r : Request} {t : Text} {n : Nat} {b : Buffered σ}
    (hr : r.Returns t) (h : b.Within n) :
    r.perform.run b = (Buffered.putBack t b).map fun _ => .done := by
  cases hr with
  | putBack t =>
    show ((Buffered.putBack t b).bind fun _ => (pure Reply.done : Scan (Buffered σ) Reply).run) = _
    cases Buffered.putBack t b <;> rfl
  | handBack c =>
    cases c with
    | none =>
      -- there is always room for nothing
      have hput : Buffered.putBack [] b = .ok () b :=
        putBack_eq_ok_iff.2 ⟨h.capacity_eq ▸ h.pending_le, rfl⟩
      rw [Option.toList_none, hput]
      rfl
    | some c =>
      show ((Buffered.putBack [c] b).bind fun _ => (pure Reply.done : Scan (Buffered σ) Reply).run) = _
      rw [Option.toList_some]
      cases Buffered.putBack [c] b <;> rfl

/-- **The capacity is kept.** After any session, whatever its steps were and however they ended, the
buffer has the capacity that was chosen and keeps to it. A text is then refused exactly when it does
not fit, and nothing changes. A text that fits is counted back, down to zero, and the next reads return
it in order without touching the source; what is pending behind it is what was pending before. To hand
an end of input back never fails and changes nothing. -/
theorem capacity_kept (source : σ) (options : Options) (steps : List Step) :
    let b := Scan.finish Step.perform steps (Buffered.start source options)
    b.capacity = options.capacity ∧ b.pending.length ≤ options.capacity ∧
      (Request.handBack none).perform.run b = .ok .done b ∧
      ∀ r t, Request.Returns r t →
        (options.capacity < b.pending.length + t.length →
          r.perform.run b = .error (.overfull options.capacity (b.pending.length + t.length)) b) ∧
        (b.pending.length + t.length ≤ options.capacity → ∃ b',
          r.perform.run b = .ok .done b' ∧
          b'.source = b.source ∧ b'.offset = b.offset - t.length ∧
          List.Forall₂ (fun c o => o.result = .ok (.char (some c)) ∧ o.state.source = b.source) t
            (Scan.trace Request.perform (List.replicate t.length .next) b') ∧
          Scan.finish Request.perform (List.replicate t.length .next) b' =
            { b with offset := b'.offset + t.length }) := by
  intro b
  have hb : b.Within options.capacity := within_finish steps (within_start source options)
  refine ⟨hb.capacity_eq, hb.pending_le, rfl, fun r t hr => ⟨fun hover => ?_, fun hroom => ?_⟩⟩
  · rw [← hb.capacity_eq] at hover ⊢
    rw [hr.run_eq hb, putBack_eq_error_iff.2 ⟨hover, rfl, rfl⟩]
    rfl
  · rw [← hb.capacity_eq] at hroom
    let b' : Buffered σ := { b with pending := t ++ b.pending, offset := b.offset - t.length }
    have hpending : b'.pending = t ++ b.pending := rfl
    have hput : Buffered.putBack t b = .ok () b' := putBack_eq_ok_iff.2 ⟨hroom, rfl⟩
    refine ⟨b', ?_, rfl, rfl, forall₂_reads hpending⟩
    rw [hr.run_eq hb, hput]
    rfl

/-- A character was read, the source failed behind the back of the buffer, and two characters that were
never read were handed back. There is room for one more, but not for two. -/
theorem capacity_kept_foreign :
    let source : ByteSource := { script := [.data [0x61], .failure "lost"] }
    let steps : List Step :=
      [.ask .next, .pull, .ask (.putBack ['x', 'y']), .ask (.putBack ['1', '2'])]
    let b := Scan.finish Step.perform steps (Buffered.start source { capacity := 3 })
    b.pending = ['x', 'y'] ∧
      (Request.putBack ['1', '2']).perform.run b = .error (.overfull 3 4) b ∧
      ∃ b', (Request.handBack (some 'z')).perform.run b = .ok .done b' ∧ b'.source = b.source ∧
        List.Forall₂ (fun c o => o.result = .ok (.char (some c)) ∧ o.state.source = b.source) ['z']
          (Scan.trace Request.perform [.next] b') := by
  intro source steps b
  have hpending : b.pending = ['x', 'y'] := by decide +kernel
  obtain ⟨-, -, -, hreturns⟩ := capacity_kept source { capacity := 3 } steps
  obtain ⟨hover, -⟩ := hreturns _ _ (.putBack ['1', '2'])
  obtain ⟨-, hroom⟩ := hreturns _ _ (.handBack (some 'z'))
  obtain ⟨b', hrun, hsource, -, hreads, -⟩ := hroom (by decide +kernel)
  have hfull : (Request.putBack ['1', '2']).perform.run b = _ := hover (by decide +kernel)
  rw [hpending] at hfull
  exact ⟨hpending, hfull, b', hrun, hsource, hreads⟩

end Rescan
