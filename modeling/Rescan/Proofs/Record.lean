import Rescan.Proofs.Requests
import Rescan.Proofs.View
import Rescan.Source.Bytes

/-!
# Nothing is lost

The characters that a source hands out are written down in a record, which nothing reads. Then at any
time the record is what was consumed, followed by what is pending, and the counter tells where it is
cut. So a character that was handed back, by a recognizer or by the caller, is where it came from, and
a fault in the middle of handing back loses nothing either.

## Main definitions

* `Recorded`: a source with the record of what it has handed out.
* `Step.record`: a step of a session, with the record; reading behind the back of the buffer is not
  written down.
* `isLawful`: sessions that hand back only what was just consumed.

## Main statements

* `agree_record`: what one step keeps.
* `nothing_lost`: after every step of a session, what is pending is the record from the counter on.
-/

namespace Rescan

variable {σ α : Type}

/-! ## Recorded sources -/

/-- A source and the characters it has handed out so far, in order. -/
structure Recorded (σ : Type) where
  source : σ
  handed : Text := []
deriving DecidableEq, Repr

namespace Recorded

variable [Source σ]

/-- The next character, which is written down. -/
def next (r : Recorded σ) : Outcome (Recorded σ) (Option Char) :=
  match Source.next.run r.source with
  | .ok c source => .ok c { source, handed := r.handed ++ c.toList }
  | .error e source => .error e { r with source }

/-- Applies an action to the source without writing anything down. -/
def unrecorded (x : Scan σ α) : Scan (Recorded σ) α where
  run r := (x.run r.source).mapState fun source => { r with source }

theorem next_eq_ok {r r' : Recorded σ} {c : Option Char} (h : next r = .ok c r') :
    Source.next.run r.source = .ok c r'.source ∧ r'.handed = r.handed ++ c.toList := by
  unfold next at h
  split at h
  · next hs =>
    cases h
    exact ⟨hs, rfl⟩
  · cases h

theorem next_eq_error {r r' : Recorded σ} {e : Fault} (h : next r = .error e r') :
    Source.next.run r.source = .error e r'.source ∧ r'.handed = r.handed := by
  unfold next at h
  split at h
  · cases h
  · next hs =>
    cases h
    exact ⟨hs, rfl⟩

instance : Source (Recorded σ) where
  next := ⟨next⟩
  left r := Source.left r.source
  left_some h := Source.left_some (next_eq_ok h).1
  left_none h := Source.left_none (next_eq_ok h).1

/-- What was handed out of a passage, and then what is left of it. -/
def whole (r : Recorded Passage) : Text :=
  r.handed ++ r.source.rest

/-- A read takes nothing off the passage that it does not write down. -/
theorem whole_next (r : Recorded Passage) : (Source.next.run r).state.whole = r.whole := by
  obtain ⟨⟨rest⟩, handed⟩ := r
  cases rest with
  | nil =>
    show handed ++ [] ++ [] = handed ++ []
    rw [List.append_nil]
  | cons c rest =>
    show handed ++ [c] ++ rest = handed ++ c :: rest
    rw [List.append_assoc, List.singleton_append]

end Recorded

/-! ## Buffered sources with a record -/

namespace Buffered

/-- The same buffered source without the record. -/
def forget (b : Buffered (Recorded σ)) : Buffered σ where
  source := b.source.source
  pending := b.pending
  capacity := b.capacity
  offset := b.offset

/-- The part of the record that the counter says is consumed. -/
def consumed (b : Buffered (Recorded σ)) : Text :=
  b.source.handed.take b.offset

/-- The invariant: the record is what was consumed, with the window at its end, and then what is
pending; the counter counts the first part. -/
def Kept (w : Text) (b : Buffered (Recorded σ)) : Prop :=
  ∃ v, b.source.handed = v ++ w ++ b.pending ∧ b.offset = (v ++ w).length

theorem Kept.nil {w : Text} {b : Buffered (Recorded σ)} (h : b.Kept w) : b.Kept [] := by
  obtain ⟨v, hh, ho⟩ := h
  exact ⟨v ++ w, by rwa [List.append_nil], by rwa [List.append_nil]⟩

/-- What the counter says is consumed is the first part of the record. -/
theorem Kept.handed_eq {b : Buffered (Recorded σ)} (h : b.Kept []) :
    b.source.handed = b.consumed ++ b.pending ∧ b.offset = b.consumed.length := by
  obtain ⟨v, hh, ho⟩ := h
  rw [List.append_nil] at hh ho
  have hv : b.consumed = v := by
    rw [consumed, hh, ho, List.take_left]
  rw [hv]
  exact ⟨hh, ho⟩

/-- A text at the end of what was consumed can serve as window. -/
theorem Kept.of_suffix {t : Text} {b : Buffered (Recorded σ)} (h : b.Kept [])
    (ht : t <:+ b.consumed) : b.Kept t := by
  obtain ⟨hh, ho⟩ := h.handed_eq
  obtain ⟨v, hv⟩ := ht
  exact ⟨v, by rw [hv, hh], by rw [hv, ho]⟩

/-- A source that has consumed the first part of a passage has the rest of it in its stream. -/
theorem Kept.stream_forget {b : Buffered (Recorded Passage)} (h : b.Kept []) :
    b.forget.stream = b.source.whole.drop b.offset := by
  obtain ⟨hh, ho⟩ := h.handed_eq
  calc b.forget.stream
      = b.pending ++ b.source.source.rest := rfl
    _ = (b.consumed ++ (b.pending ++ b.source.source.rest)).drop b.consumed.length :=
        List.drop_left.symm
    _ = b.source.whole.drop b.offset := by
        rw [Recorded.whole, hh, ho, List.append_assoc]

theorem Kept.putBack {w u : Text} {b b' : Buffered (Recorded σ)} (h : b.Kept (w ++ u))
    (hb : Buffered.putBack u b = .ok () b') : b'.Kept w := by
  obtain ⟨-, rfl⟩ := putBack_eq_ok_iff.1 hb
  obtain ⟨v, hh, ho⟩ := h
  refine ⟨v, ?_, ?_⟩
  · simp [hh]
  · simp only [ho, List.length_append]
    omega

theorem putBack_forget (t : Text) (b : Buffered (Recorded σ)) :
    Buffered.putBack t b.forget = (Buffered.putBack t b).mapState forget := by
  by_cases h : b.capacity < b.pending.length + t.length
  · simp [Buffered.putBack, forget, h, Outcome.mapState]
  · simp [Buffered.putBack, forget, h, Outcome.mapState]

variable [Source σ]

theorem Kept.next {w : Text} {b b' : Buffered (Recorded σ)} {c : Option Char} (h : b.Kept w)
    (hb : Buffered.next b = .ok c b') : b'.Kept (w ++ c.toList) := by
  obtain ⟨v, hh, ho⟩ := h
  cases c with
  | some c =>
    rcases next_eq_some hb with ⟨t, hp, rfl⟩ | ⟨hp, source, hs, rfl⟩
    · -- the character was written down when the source handed it out
      refine ⟨v, ?_, ?_⟩
      · simp [hh, hp]
      · simp [ho, Nat.add_assoc]
    · obtain ⟨-, hhanded⟩ := Recorded.next_eq_ok hs
      refine ⟨v, ?_, ?_⟩
      · simp [hhanded, hh, hp]
      · simp [ho, Nat.add_assoc]
  | none =>
    -- an end writes nothing down
    obtain ⟨hp, source, hs, rfl⟩ := next_eq_none hb
    obtain ⟨-, hhanded⟩ := Recorded.next_eq_ok hs
    exact ⟨v, by simp [hhanded, hh], by simp [ho]⟩

theorem Kept.next_error {w : Text} {b b' : Buffered (Recorded σ)} {e : Fault} (h : b.Kept w)
    (hb : Buffered.next b = .error e b') : b'.Kept w := by
  obtain ⟨v, hh, ho⟩ := h
  obtain ⟨-, source, hs, rfl⟩ := next_eq_error hb
  obtain ⟨-, hhanded⟩ := Recorded.next_eq_error hs
  exact ⟨v, by rw [← hh]; exact hhanded, ho⟩

theorem next_forget (b : Buffered (Recorded σ)) :
    Buffered.next b.forget = (Buffered.next b).mapState forget := by
  obtain ⟨⟨source, handed⟩, pending, capacity, offset⟩ := b
  cases pending with
  | cons c pending => rfl
  | nil =>
    have hnext : (Source.next : Scan (Recorded σ) (Option Char)).run ⟨source, handed⟩ =
        Recorded.next ⟨source, handed⟩ := rfl
    simp only [Buffered.next, forget, hnext, Recorded.next]
    cases Source.next.run source with
    | ok c source => cases c <;> rfl
    | error e source => rfl

end Buffered

open Buffered

variable [Source σ]

/-! ## One request -/

/-- What every read of the source keeps, a read of the buffered source keeps. -/
theorem Buffered.source_next {known : σ → Prop}
    (h : ∀ s, known s → known (Source.next.run s).state) {b : Buffered σ} (hb : known b.source) :
    known (Buffered.next b).state.source := by
  have hs := h b.source hb
  unfold Buffered.next
  split
  · exact hb
  · split <;> simp_all

/-- A buffered source with the record beside the one without it. The window is what was read last,
so it stands at the end of what was consumed. `known` is whatever else is known of the source and its
record. -/
def recording (known : Recorded σ → Prop) (hknown : ∀ r, known r → known (Source.next.run r).state) :
    Simulation (Buffered (Recorded σ)) (Buffered σ) where
  rel w b b' := b' = b.forget ∧ b.Kept w ∧ known b.source
  ended _ _ := True
  failed b b' := b' = b.forget ∧ b.Kept [] ∧ known b.source
  excused _ := False
  next := by
    rintro w b _ ⟨rfl, hk, hj⟩
    have hj' := source_next hknown hj
    change Outcome.Agree _ _ _ (Buffered.next b) (Buffered.next b.forget)
    rw [next_forget]
    apply Outcome.Agree.mapState
    · intro c b' h
      rw [h] at hj'
      exact ⟨⟨rfl, hk.next h, hj'⟩, fun _ => trivial⟩
    · intro e b' h
      rw [h] at hj'
      exact ⟨rfl, (hk.next_error h).nil, hj'⟩
  putBack := by
    rintro w u b _ ⟨rfl, hk, hj⟩
    change Outcome.Agree _ _ _ (Buffered.putBack u b) (Buffered.putBack u b.forget)
    rw [putBack_forget]
    apply Outcome.Agree.mapState
    · intro _ b' h
      refine ⟨rfl, hk.putBack h, ?_⟩
      obtain ⟨-, rfl⟩ := putBack_eq_ok_iff.1 h
      exact hj
    · intro e b' h
      obtain ⟨-, -, rfl⟩ := putBack_eq_error_iff.1 h
      exact ⟨rfl, hk.nil, hj⟩
  fail h := ⟨h.1, h.2.1.nil, h.2.2⟩

/-! ## Sessions -/

/-- A step of a session, with the record. What is read behind the back of the buffer is not handed
out to it, and is not written down. -/
def Step.record : Step → Scan (Buffered (Recorded σ)) Reply
  | .pull => return .char (← Buffered.onSource (Recorded.unrecorded Source.next))
  | .ask request => request.perform
  | .inspect => return .done

/-- Whether a step hands back only a text that is the end of what was consumed. The request for blank
lines does not keep to that. -/
def Step.returns (consumed : Text) : Step → Bool
  | .ask (.handBack c) => c.toList.isSuffixOf consumed
  | .ask (.putBack t) => t.isSuffixOf consumed
  | .ask .dropBlankLines => false
  | _ => true

/-- Whether every step of a session hands back only what was just consumed, whatever the steps before
it have ended in. -/
def isLawful : List Step → Buffered (Recorded σ) → Bool
  | [], _ => true
  | step :: rest, b => step.returns b.consumed && isLawful rest (step.record.run b).state

section Step

variable {known : Recorded σ → Prop} {hknown : ∀ r, known r → known (Source.next.run r).state}
  {b : Buffered (Recorded σ)}

/-- Handing back the end of what was consumed. -/
theorem agree_putBack {t : Text} (h : (recording known hknown).rel [] b b.forget)
    (ht : t.isSuffixOf b.consumed = true) :
    Outcome.Agree (fun _ => False) (recording known hknown).failed
      (fun _ s s' => (recording known hknown).rel [] s s')
      ((CharStream.putBack t).run b) ((CharStream.putBack t).run b.forget) := by
  obtain ⟨-, hk, hj⟩ := h
  apply (recording known hknown).putBack (u := t)
  exact ⟨rfl, hk.of_suffix (List.isSuffixOf_iff_suffix.1 ht), hj⟩

/-- A request that hands back only what was just consumed keeps the invariant, however it ends. -/
theorem agree_perform {request : Request} (h : (recording known hknown).rel [] b b.forget)
    (hr : (Step.ask request).returns b.consumed = true) :
    Outcome.Agree (fun _ => False) (recording known hknown).failed
      (fun _ s s' => (recording known hknown).rel [] s s')
      (request.perform.run b) (request.perform.run b.forget) := by
  -- the two requests of the caller, and the one that is not allowed
  by_cases hread : request.isReading = true ∧ request ≠ .dropBlankLines
  · apply ((Simulation.tracks_perform request hread.1 hread.2).agree h).mono
    rintro reply s s' ⟨v, -, rfl, hk, hj⟩
    exact ⟨rfl, hk.nil, hj⟩
  · cases request with
    | handBack c =>
      cases c with
      | none => exact .ok h
      | some c => exact (agree_putBack h hr).bind fun _ _ _ _ h' => .ok h'
    | putBack t => exact (agree_putBack h hr).bind fun _ _ _ _ h' => .ok h'
    | dropBlankLines => cases hr
    | _ => exact absurd ⟨rfl, by simp⟩ hread

/-- **What one step keeps.** A lawful step of a session keeps the invariant, however it ends, and the
record changes nothing. -/
theorem agree_record {step : Step} (h : (recording known hknown).rel [] b b.forget)
    (hr : step.returns b.consumed = true)
    (hpull : step = .pull → ∀ r, known r → known ((Recorded.unrecorded Source.next).run r).state) :
    Outcome.Agree (fun _ => False) (recording known hknown).failed
      (fun _ s s' => (recording known hknown).rel [] s s')
      (step.record.run b) (step.perform.run b.forget) := by
  cases step with
  | ask request => exact agree_perform h hr
  | inspect => exact .ok h
  | pull =>
    -- the buffer does not learn of the character, and neither does the record
    obtain ⟨-, hk, hj⟩ := h
    have hj' := hpull rfl _ hj
    obtain ⟨⟨source, handed⟩, pending, capacity, offset⟩ := b
    simp only [Step.record, Step.perform, Scan.run_bind, onSource, Recorded.unrecorded, forget] at hj' ⊢
    cases hs : Source.next.run source with
    | ok c source' =>
      rw [hs] at hj'
      exact .ok ⟨rfl, hk, hj'⟩
    | error e source' =>
      rw [hs] at hj'
      exact .error ⟨rfl, hk, hj'⟩

/-- What a session keeps: its outcomes are those without the record, and after each of them the
invariant holds. The induction is over the steps, with the lawfulness of those to come. -/
theorem trace_record (steps : List Step) (h : (recording known hknown).rel [] b b.forget)
    (hlaw : isLawful steps b = true)
    (hpull : .pull ∈ steps → ∀ r, known r → known ((Recorded.unrecorded Source.next).run r).state) :
    Scan.trace Step.perform steps b.forget =
        (Scan.trace Step.record steps b).map (Outcome.mapState forget) ∧
      ∀ o ∈ Scan.trace Step.record steps b, o.state.Kept [] ∧ known o.state.source := by
  have hrun : List.Forall₂
      (fun o o' => (o.state.Kept [] ∧ known o.state.source) ∧ o.mapState forget = o')
      (Scan.trace Step.record steps b) (Scan.trace Step.perform steps b.forget) := by
    apply Scan.forall₂_trace fun rest s s' => (recording known hknown).rel [] s s' ∧
      isLawful rest s = true ∧
      (.pull ∈ rest → ∀ r, known r → known ((Recorded.unrecorded Source.next).run r).state)
    · rintro step rest b b' ⟨h, hlaw, hpull⟩
      have hb : b' = b.forget := h.1
      subst hb
      -- the steps to come are lawful after this one, by definition
      obtain ⟨hstep, hrest⟩ := Bool.and_eq_true_iff.1 hlaw
      have hagree := agree_record h hstep fun hp => hpull (hp ▸ List.mem_cons_self)
      have hrel := hagree.state ((recording known hknown).rel []) (fun _ _ _ h => h) (fun _ _ h => h)
      refine ⟨⟨hrel.2, ?_⟩, hrel, hrest, fun hp => hpull (List.mem_cons_of_mem _ hp)⟩
      exact (hagree.eq_mapState (fun _ _ _ h => h.1) (fun _ _ h => h.1)).symm
    · exact ⟨h, hlaw, hpull⟩
  rw [List.forall₂_and_left, ← List.forall₂_map_left_iff, List.forall₂_eq_eq_eq] at hrun
  exact ⟨hrun.2.symm, hrun.1⟩

end Step

/-- **Nothing is lost.** After every step of a lawful session, whether it ended in a value or in a
fault, the counter does not exceed the record, and what is pending is the record from the counter on;
and the record changes nothing. So in a passage that is not read behind the back of the buffer, what is
still to be read is the passage from the counter on. -/
theorem nothing_lost :
    (∀ {σ : Type} [Source σ] (source : σ) (options : Options) (steps : List Step),
      isLawful steps (Buffered.start { source } options : Buffered (Recorded σ)) = true →
      Scan.trace Step.perform steps (Buffered.start source options) =
          (Scan.trace Step.record steps (Buffered.start { source } options)).map
            (Outcome.mapState forget) ∧
        ∀ o ∈ Scan.trace Step.record steps (Buffered.start { source } options),
          o.state.offset ≤ o.state.source.handed.length ∧
            o.state.pending = o.state.source.handed.drop o.state.offset) ∧
    ∀ (t : Text) (options : Options) (steps : List Step),
      isLawful steps (Buffered.start { source := ⟨t⟩ } options : Buffered (Recorded Passage)) = true →
      .pull ∉ steps →
      ∀ o ∈ Scan.trace Step.perform steps (Buffered.start (⟨t⟩ : Passage) options),
        o.state.stream = t.drop o.state.offset := by
  constructor
  · intro σ _ source options steps hlaw
    have hstart : (recording (fun _ : Recorded σ => True) fun _ h => h).rel []
        (Buffered.start { source } options) (Buffered.start source options) :=
      ⟨rfl, ⟨[], rfl, rfl⟩, trivial⟩
    obtain ⟨htrace, hkept⟩ := trace_record steps hstart hlaw fun _ _ h => h
    refine ⟨htrace, fun o ho => ?_⟩
    obtain ⟨hh, hoff⟩ := (hkept o ho).1.handed_eq
    rw [hh, hoff, List.length_append, List.drop_left]
    exact ⟨Nat.le_add_right _ _, rfl⟩
  · intro t options steps hlaw hpull
    -- the record and what is left of the passage stay the passage
    have hknown (r : Recorded Passage) (h : r.whole = t) : (Source.next.run r).state.whole = t :=
      r.whole_next.trans h
    have hstart : (recording (fun r : Recorded Passage => r.whole = t) hknown).rel []
        (Buffered.start { source := ⟨t⟩ } options) (Buffered.start ⟨t⟩ options) :=
      ⟨rfl, ⟨[], rfl, rfl⟩, rfl⟩
    obtain ⟨htrace, hkept⟩ := trace_record steps hstart hlaw fun hp => absurd hp hpull
    have hforget : Buffered.forget (Buffered.start { source := (⟨t⟩ : Passage) } options) =
        Buffered.start ⟨t⟩ options := rfl
    rw [hforget] at htrace
    rw [htrace]
    intro o' ho'
    obtain ⟨o, ho, rfl⟩ := List.mem_map.1 ho'
    obtain ⟨hk, hwhole⟩ := hkept o ho
    rw [Outcome.state_mapState, hk.stream_forget, hwhole]
    rfl

/-- A sign that cannot be handed back, a reader that fails and a byte that begins no character: the
counter and the record stay in step. -/
theorem nothing_lost_lone_sign :
    let steps : List Step :=
      [.ask .signed, .ask (.handBack (some '+')), .ask .next, .ask .word, .pull, .ask (.putBack ['a'])]
    let script : Script := [.data [0x2B, 0x61], .failure "lost", .data [0xFF, 0x62]]
    let start : Buffered (Recorded ByteSource) :=
      Buffered.start { source := { script } } { capacity := 1 }
    isLawful steps start = true ∧
      (∀ o ∈ Scan.trace Step.record steps start,
        o.state.offset ≤ o.state.source.handed.length ∧
          o.state.pending = o.state.source.handed.drop o.state.offset) ∧
      ∀ o ∈ Scan.trace Step.perform [.ask .signed, .ask (.exactly ['+', 'b']), .ask .peek]
          (Buffered.start (⟨['+', 'a']⟩ : Passage) { capacity := 1 }),
        o.state.stream = ['+', 'a'].drop o.state.offset := by
  intro steps script start
  have hlaw : isLawful steps start = true := by decide +kernel
  refine ⟨hlaw, (nothing_lost.1 _ _ steps hlaw).2, ?_⟩
  exact nothing_lost.2 _ _ _ (by decide +kernel) (by decide)

end Rescan
