import Mathlib.Data.List.ReduceOption
import Rescan.Proofs.Requests
import Rescan.Proofs.View

/-!
# The division of the stream cannot be observed

The stream of a buffered passage is divided between the buffer and the passage. Requests that only read
cannot tell where: they have the same results and leave the counter at the same place. For faults this
is not obvious, since a buffer with much in it has less room. But a recognizer hands back only what it
has read, and while it reads, its characters come out of the buffer first: either there is room for the
whole window, or the buffer has been emptied and the two states are the same.

## Main definitions

* `Redivided`: the same stream, divided in two ways.
* `observe`: what can be seen of an outcome.

## Main statements

* `peek_redivides`: looking ahead only changes the division.
* `division_unobservable`: the division shows in no result and no offset, and neither does looking
  ahead in between.
-/

namespace Rescan

open CharStream Buffered

/-! ## Two divisions of a stream -/

/-- The same stream in two buffered passages of capacity `n`, with the same number of characters
consumed. -/
structure Redivided (n : Nat) (b₁ b₂ : Buffered Passage) : Prop where
  capacity₁ : b₁.capacity = n
  capacity₂ : b₂.capacity = n
  pending₁ : b₁.pending.length ≤ n
  pending₂ : b₂.pending.length ≤ n
  offset : b₁.offset = b₂.offset
  stream : b₁.stream = b₂.stream

namespace Redivided

variable {n : Nat} {b b₁ b₂ b₃ : Buffered Passage}

theorem self (hc : b.capacity = n) (hp : b.pending.length ≤ n) : Redivided n b b :=
  ⟨hc, hc, hp, hp, rfl, rfl⟩

theorem trans (h : Redivided n b₁ b₂) (h' : Redivided n b₂ b₃) : Redivided n b₁ b₃ :=
  ⟨h.capacity₁, h'.capacity₂, h.pending₁, h'.pending₂, h.offset.trans h'.offset,
    h.stream.trans h'.stream⟩

/-- With empty buffers there is only one way to divide. -/
theorem eq_of_pending_nil (h : Redivided n b₁ b₂) (h₁ : b₁.pending = []) (h₂ : b₂.pending = []) :
    b₁ = b₂ := by
  obtain ⟨⟨rest₁⟩, pending₁, capacity₁, offset₁⟩ := b₁
  obtain ⟨⟨rest₂⟩, pending₂, capacity₂, offset₂⟩ := b₂
  obtain ⟨hc₁, hc₂, -, -, ho, hs⟩ := h
  dsimp only at h₁ h₂ hc₁ hc₂ ho
  subst h₁ h₂ hc₁ hc₂ ho
  rw [stream_passage, stream_passage] at hs
  dsimp only [List.nil_append] at hs
  rw [hs]

/-- At the end of the stream both buffers are empty. -/
theorem eq_of_stream_nil (h : Redivided n b₁ b₂) (hs : b₁.stream = []) : b₁ = b₂ := by
  have hs₂ : b₂.stream = [] := h.stream ▸ hs
  exact h.eq_of_pending_nil (List.append_eq_nil_iff.1 hs).1 (List.append_eq_nil_iff.1 hs₂).1

theorem advance (h : Redivided n b₁ b₂) : Redivided n b₁.advance b₂.advance where
  capacity₁ := h.capacity₁
  capacity₂ := h.capacity₂
  pending₁ := Nat.le_trans (by simp) h.pending₁
  pending₂ := Nat.le_trans (by simp) h.pending₂
  offset := congrArg (· + 1) h.offset
  stream := by rw [stream_advance, stream_advance, h.stream]

end Redivided

/-! ## The simulation -/

/-- Two divisions of one stream beside each other. Either they have become the same, or there is room
for the whole window in both. -/
def redividing (n : Nat) : Simulation (Buffered Passage) (Buffered Passage) where
  rel w b₁ b₂ := Redivided n b₁ b₂ ∧
    (b₁ = b₂ ∨ b₁.pending.length + w.length ≤ n ∧ b₂.pending.length + w.length ≤ n)
  ended b₁ b₂ := b₁ = b₂
  failed := Redivided n
  excused _ := False
  next := by
    rintro w b₁ b₂ ⟨h, hroom⟩
    change Outcome.Agree _ _ _ (Buffered.next b₁) (Buffered.next b₂)
    rw [next_eq_of_stream, next_eq_of_stream, ← h.stream]
    cases hs : b₁.stream with
    | nil =>
      -- an end makes the two the same
      have hb := h.eq_of_stream_nil hs
      exact .ok ⟨⟨h, .inl hb⟩, fun _ => hb⟩
    | cons c rest =>
      refine .ok ⟨⟨h.advance, ?_⟩, by simp⟩
      rcases hroom with rfl | ⟨h₁, h₂⟩
      · exact .inl rfl
      by_cases hp : b₁.pending = [] ∧ b₂.pending = []
      · exact .inl (congrArg Buffered.advance (h.eq_of_pending_nil hp.1 hp.2))
      · -- a buffer that is not empty shows that there is room for one more
        have hlen : 0 < b₁.pending.length ∨ 0 < b₂.pending.length := by
          rw [List.length_pos_iff, List.length_pos_iff]
          tauto
        right
        simp only [pending_advance, List.length_tail, List.length_append, Option.toList_some,
          List.length_singleton]
        omega
  putBack := by
    rintro w u b₁ b₂ ⟨h, hroom⟩
    change Outcome.Agree _ _ _ (Buffered.putBack u b₁) (Buffered.putBack u b₂)
    have hc₁ := h.capacity₁
    have hc₂ := h.capacity₂
    rcases hroom with rfl | ⟨h₁, h₂⟩
    · -- the same state may overflow, and then does so with itself
      apply Outcome.Agree.self
      · intro _ b' ho
        obtain ⟨hfits, rfl⟩ := putBack_eq_ok_iff.1 ho
        refine ⟨.self hc₁ ?_, .inl rfl⟩
        simp only [List.length_append]
        omega
      · intro e b' ho
        obtain ⟨-, -, rfl⟩ := putBack_eq_error_iff.1 ho
        exact h
    · -- what is handed back is part of the window, and there is room for all of it
      rw [List.length_append] at h₁ h₂
      rw [putBack_eq_ok_iff.2 ⟨by omega, rfl⟩, putBack_eq_ok_iff.2 ⟨by omega, rfl⟩]
      refine .ok ⟨⟨hc₁, hc₂, ?_, ?_, congrArg (· - u.length) h.offset, ?_⟩, .inr ⟨?_, ?_⟩⟩
      case refine_3 =>
        have hs := h.stream
        rw [stream_passage, stream_passage] at hs ⊢
        rw [List.append_assoc, List.append_assoc, hs]
      all_goals
        simp only [List.length_append]
        omega
  fail h := h.1

theorem redividing_loose (n : Nat) : (redividing n).Loose where
  exchange := by
    rintro w w' b₁ b₂ hle ⟨h, rfl | ⟨h₁, h₂⟩⟩
    · exact ⟨h, .inl rfl⟩
    · exact ⟨h, .inr ⟨by omega, by omega⟩⟩
  ended hb h := ⟨h.1, .inl hb⟩

/-! ## Requests -/

/-- What can be seen of an outcome: its result, and how much has been consumed. -/
def observe {σ α : Type} (o : Outcome (Buffered σ) α) : Except Fault α × Nat :=
  (o.result, o.state.offset)

variable {n : Nat} {b b₁ b₂ : Buffered Passage}

/-- What one request keeps: it is observed to do the same, and the stream is the same afterwards. -/
theorem perform_redivided {request : Request} (h : Redivided n b₁ b₂)
    (hr : request.isReading = true) :
    observe (request.perform.run b₁) = observe (request.perform.run b₂) ∧
      Redivided n (request.perform.run b₁).state (request.perform.run b₂).state := by
  have hstart : (redividing n).rel [] b₁ b₂ := ⟨h, .inr ⟨h.pending₁, h.pending₂⟩⟩
  have hagree := ((redividing_loose n).tracks_perform request hr).agree hstart
  have hstate : Redivided n (request.perform.run b₁).state (request.perform.run b₂).state := by
    apply hagree.state (Redivided n)
    · rintro reply b₁' b₂' ⟨v, -, hrel⟩
      exact hrel.1
    · exact fun _ _ h => h
  exact ⟨Prod.ext hagree.result_eq hstate.offset, hstate⟩

/-- Looking ahead only moves the first character of the stream into the buffer. -/
theorem peek_redivides (hc : b.capacity = n) (hp : b.pending.length ≤ n) (hpos : 1 ≤ n) :
    ∃ b', peek.run b = .ok b.stream.head? b' ∧ Redivided n b b' := by
  have hpeek : peek.run b = (Buffered.next b).bind fun c b₁ =>
      ((handBack c).run b₁).bind fun _ b₂ => .ok c b₂ := rfl
  rw [hpeek, next_eq_of_stream]
  cases hs : b.stream with
  | nil => exact ⟨b, rfl, .self hc hp⟩
  | cons c rest =>
    -- a pending character goes back to its own place, and one of the source to an empty buffer
    have hroom : b.pending.tail.length + 1 ≤ n := by
      rw [List.length_tail]
      omega
    have hback : (handBack (some c)).run b.advance = _ :=
      putBack_eq_ok_iff.2 ⟨hc ▸ hroom, rfl⟩
    rw [Outcome.bind_ok, hback, Outcome.bind_ok]
    refine ⟨_, rfl, hc, hc, hp, hroom, rfl, ?_⟩
    show b.stream = [c] ++ b.advance.pending ++ b.advance.source.rest
    rw [List.append_assoc, ← stream_passage, stream_advance, hs]
    rfl

/-! ## Sessions -/

/-- A session is observed to do the same in either of two divisions. -/
theorem trace_redivided (requests : List Request) (h : Redivided n b₁ b₂)
    (hr : ∀ r ∈ requests, r.isReading = true) :
    (Scan.trace Request.perform requests b₁).map observe =
      (Scan.trace Request.perform requests b₂).map observe := by
  rw [← List.forall₂_eq_eq_eq, List.forall₂_map_left_iff, List.forall₂_map_right_iff]
  apply Scan.forall₂_trace fun rest b₁ b₂ => Redivided n b₁ b₂ ∧ ∀ r ∈ rest, r.isReading = true
  · rintro request rest b₁ b₂ ⟨h, hr⟩
    obtain ⟨hobs, h'⟩ := perform_redivided h (hr request List.mem_cons_self)
    exact ⟨hobs, h', fun r hm => hr r (List.mem_cons_of_mem _ hm)⟩
  · exact ⟨h, hr⟩

/-- The observations of the steps that are marked; the others are left out. -/
def kept {σ α : Type} (marked : List (Option Request)) (outcomes : List (Outcome (Buffered σ) α)) :
    List (Except Fault α × Nat) :=
  (List.zipWith (fun mark o => mark.map fun _ => observe o) marked outcomes).reduceOption

/-- Looking ahead between the requests of a session, in either of two divisions, does not change what
is observed of the requests. The induction is over the requests, the inserted ones among them. -/
theorem kept_redivided (marked : List (Option Request)) (h : Redivided n b₁ b₂)
    (hr : ∀ r ∈ marked.reduceOption, r.isReading = true) (hpos : none ∈ marked → 1 ≤ n) :
    kept marked (Scan.trace Request.perform (marked.map (·.getD .peek)) b₂) =
      (Scan.trace Request.perform marked.reduceOption b₁).map observe := by
  induction marked generalizing b₁ b₂ with
  | nil => rfl
  | cons mark marked ih =>
    have hpos' : none ∈ marked → 1 ≤ n := fun hm => hpos (List.mem_cons_of_mem _ hm)
    cases mark with
    | none =>
      -- an inserted step: the division changes on one side only
      obtain ⟨b₂', hpeek, h'⟩ := peek_redivides h.capacity₂ h.pending₂ (hpos List.mem_cons_self)
      have hstep : Request.peek.perform.run b₂ = .ok (.char b₂.stream.head?) b₂' := by
        show (peek.run b₂).bind _ = _
        rw [hpeek]
        rfl
      rw [List.reduceOption_cons_of_none] at hr ⊢
      rw [← ih (h.trans h') hr hpos']
      simp only [kept, List.map_cons, Option.getD_none, Scan.trace, hstep, Outcome.state_ok,
        List.zipWith_cons_cons, Option.map_none, List.reduceOption_cons_of_none]
    | some request =>
      rw [List.reduceOption_cons_of_some] at hr ⊢
      obtain ⟨hobs, h'⟩ := perform_redivided h (hr request List.mem_cons_self)
      have hrest := ih h' (fun r hm => hr r (List.mem_cons_of_mem _ hm)) hpos'
      simp only [kept, List.map_cons, Option.getD_some, Scan.trace, List.zipWith_cons_cons,
        Option.map_some, List.reduceOption_cons_of_some, hobs, ← hrest]

/-- **The division cannot be observed.** Take two buffered passages with the same capacity, the same
offset and the same stream, neither with more pending than its capacity, and a session of requests that
only read. Then every request has the same result in both, a value or a fault, and leaves the same
offset. If there is capacity for a character, the same holds when one of them also looks ahead at any
points of the session. -/
theorem division_unobservable (hc : b₁.capacity = b₂.capacity) (ho : b₁.offset = b₂.offset)
    (hs : b₁.pending ++ b₁.source.rest = b₂.pending ++ b₂.source.rest)
    (h₁ : b₁.pending.length ≤ b₁.capacity) (h₂ : b₂.pending.length ≤ b₂.capacity) :
    (∀ requests : List Request, (∀ r ∈ requests, r.isReading = true) →
      (Scan.trace Request.perform requests b₁).map observe =
        (Scan.trace Request.perform requests b₂).map observe) ∧
    (1 ≤ b₁.capacity → ∀ marked : List (Option Request),
      (∀ r ∈ marked.reduceOption, r.isReading = true) →
      kept marked (Scan.trace Request.perform (marked.map (·.getD .peek)) b₂) =
        (Scan.trace Request.perform marked.reduceOption b₁).map observe) := by
  have h : Redivided b₁.capacity b₁ b₂ := ⟨rfl, hc.symm, h₁, hc ▸ h₂, ho, hs⟩
  constructor
  · intro requests hr
    exact trace_redivided requests h hr
  · intro hpos marked hr
    exact kept_redivided marked h hr fun _ => hpos

/-- A sign without digits in a buffer of one character: both divisions overflow alike. -/
theorem division_unobservable_lone_sign :
    let b₁ : Buffered Passage := { source := ⟨['+', 'x', '\n']⟩, capacity := 1 }
    let b₂ : Buffered Passage := { source := ⟨['x', '\n']⟩, pending := ['+'], capacity := 1 }
    (Scan.trace Request.perform [.signed, .line, .dropBlankLines] b₁).map observe =
        (Scan.trace Request.perform [.signed, .line, .dropBlankLines] b₂).map observe ∧
      observe (Request.signed.perform.run b₂) = (.error (.overfull 1 2), 1) ∧
      kept [none, some .signed, none, none, some .line]
          (Scan.trace Request.perform [.peek, .signed, .peek, .peek, .line] b₂) =
        (Scan.trace Request.perform [.signed, .line] b₁).map observe := by
  intro b₁ b₂
  have h := @division_unobservable b₁ b₂ rfl rfl rfl (by decide) (by decide)
  refine ⟨h.1 _ (by decide), by decide +kernel, ?_⟩
  exact h.2 (by decide) [none, some .signed, none, none, some .line] (by decide)

end Rescan
