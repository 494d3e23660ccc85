import Rescan.Proofs.Division
import Rescan.Proofs.Evaluation
import Rescan.Proofs.Lookahead
import Rescan.Proofs.Plain

/-!
# Fixed texts and the choice between two of them

A fixed text is read if it comes next, and otherwise everything that was read for it is handed back.
To find out which truth value comes next one could try one name after the other. The recognizer looks
at the next character instead, and tries at most one name. This does the same for two reasons. A name
that fails on its first character was nothing but a look at that character. And the first character of
a name that fails later is pending afterwards, so that the other name fails on it and changes nothing.

## Main definitions

* `Scan.orElse`: a token, or another one where the first one is absent.

## Main statements

* `Buffered.exactly_of_peek_ne`: to try a text that begins otherwise is to look at the next character.
* `Buffered.boolean_eq_orElse`: to try the one name is to try both, down to what is in the buffer.
* `fixed_texts_exact`: when a fixed text is read and what is left, and the choice between two names.
-/

namespace Rescan

open Buffered CharStream

/-! ## One token or another -/

/-- A token, or another one where the first one is absent. -/
def Scan.orElse {σ α : Type} (x y : Scan σ (Option α)) : Scan σ (Option α) := do
  match ← x with
  | some a => return some a
  | none => y

namespace Scan

variable {σ α : Type} {x y : Scan σ (Option α)} {s s' : σ}

theorem orElse_of_present {a : α} (h : x.run s = .ok (some a) s') :
    (x.orElse y).run s = .ok (some a) s' := by
  simp [orElse, h]

theorem orElse_of_absent (h : x.run s = .ok none s') : (x.orElse y).run s = y.run s' := by
  simp [orElse, h]

theorem orElse_of_fault {e : Fault} (h : x.run s = .error e s') :
    (x.orElse y).run s = .error e s' := by
  simp [orElse, h]

end Scan

/-! ## The first character of a text -/

section Stream

variable {σ : Type} [CharStream σ] {t seen : Text} {c : Char} {s s₁ s' : σ}

/-- Where the next character is read alike, so is a text that is not empty. -/
theorem run_exactly_congr (ht : t ≠ []) (h : Source.next.run s = Source.next.run s₁) :
    (exactly t).run s = (exactly t).run s₁ := by
  cases t with
  | nil => exact absurd rfl ht
  | cons e t => simp only [exactly, follow, Scan.run_bind, h]

/-- What is read for a text begins with the next character, whether that agrees or not. -/
theorem head?_follow (ht : t ≠ []) (hn : Source.next.run s = .ok (some c) s₁)
    (h : (follow t).run s = .ok seen s') : seen.head? = some c := by
  cases t with
  | nil => exact absurd rfl ht
  | cons e t =>
    rw [follow, Scan.run_bind, hn, Outcome.bind_ok] at h
    by_cases hc : c = e
    · simp only [hc, if_true] at h
      obtain ⟨u, -, rfl⟩ := Scan.run_bind_pure_eq_ok_iff.1 h
      rw [hc, List.head?_cons]
    · simp only [hc, if_false] at h
      cases h
      rfl

theorem truthName_ne_nil (v : Bool) : truthName v ≠ [] := by
  cases v <;> simp [truthName]

end Stream

namespace Buffered

variable {σ : Type} [Source σ] {b b₁ b' : Buffered σ} {t u : Text} {c : Option Char} {d e : Char}

/-! ## Looking ahead -/

/-- To look at a character that is pending changes nothing. -/
theorem peek_of_pending (hp : b.pending = d :: u) (hb : b.pending.length ≤ b.capacity) :
    peek.run b = .ok (some d) b := by
  have hback : (handBack (some d)).run { b with pending := u, offset := b.offset + 1 } =
      .ok () b := by
    refine putBack_eq_ok_iff.2 ⟨?_, ?_⟩
    · simpa [hp] using hb
    · obtain ⟨source, pending, capacity, offset⟩ := b
      obtain rfl : pending = d :: u := hp
      rfl
  exact peek_eq_ok_iff.2 ⟨_, next_of_pending hp, hback⟩

/-- To look once more changes nothing: a character is pending by then, and the end of a passage stays
where it is. -/
theorem peek_again {b b' : Buffered Passage} (h : peek.run b = .ok c b') :
    peek.run b' = .ok c b' := by
  obtain ⟨b₁, h₁, h₂⟩ := peek_eq_ok_iff.1 h
  cases c with
  | some d =>
    obtain ⟨hroom, rfl⟩ := putBack_eq_ok_iff.1 h₂
    have hb : ([d] ++ b₁.pending).length ≤ b₁.capacity := by
      rwa [List.length_append, Nat.add_comm]
    exact peek_of_pending rfl hb
  | none =>
    cases h₂
    have hb : b' = b := by
      change Buffered.next b = _ at h₁
      rw [next_eq_of_stream] at h₁
      split at h₁
      · cases h₁
        rfl
      · cases h₁
    rwa [hb] at h ⊢

/-! ## Texts that are absent -/

/-- To try a text that begins with another character is to look at the next one: it is read, and then
handed back. -/
theorem exactly_of_peek_ne (h : peek.run b = .ok c b') (hc : c ≠ some e) :
    (exactly (e :: t)).run b = .ok false b' := by
  obtain ⟨b₁, h₁, h₂⟩ := peek_eq_ok_iff.1 h
  cases c with
  | some d =>
    have hd : d ≠ e := fun hd => hc (congrArg some hd)
    have hback : (CharStream.putBack [d]).run b₁ = .ok () b' := h₂
    simp [exactly, follow, h₁, hd, hback]
  | none =>
    -- at an end nothing was read, and to hand nothing back there is always room
    cases h₂
    obtain ⟨hp, source, -, hb'⟩ := next_eq_none h₁
    have hback : (CharStream.putBack []).run b' = .ok () b' :=
      putBack_eq_ok_iff.2 ⟨by simp [hb', hp], rfl⟩
    simp [exactly, follow, h₁, hback]

/-- The first character that was read for a text is pending after the text turned out to be absent. -/
theorem peek_of_exactly_absent (ht : t ≠ []) (hn : Source.next.run b = .ok (some d) b₁)
    (h : (exactly t).run b = .ok false b') : peek.run b' = .ok (some d) b' := by
  obtain ⟨seen, b₂, h₂, h⟩ := Scan.run_bind_eq_ok_iff.1 h
  have hhead := head?_follow ht hn h₂
  by_cases hseen : seen = t
  · -- the text would be there
    simp only [hseen, if_true] at h
    cases h
  · simp only [hseen, if_false] at h
    obtain ⟨_, hback, -⟩ := Scan.run_bind_pure_eq_ok_iff.1 h
    obtain ⟨u, rfl⟩ := List.head?_eq_some_iff.1 hhead
    obtain ⟨hroom, rfl⟩ := putBack_eq_ok_iff.1 hback
    have hb : (d :: u ++ b₂.pending).length ≤ b₂.capacity := by
      rwa [List.length_append, Nat.add_comm]
    exact peek_of_pending rfl hb

/-! ## Truth values -/

section Truth

variable {v : Bool}

theorem truth_of_peek_ne (h : peek.run b = .ok c b') (hc : c ≠ (truthName v).head?) :
    (truth v).run b = .ok none b' := by
  cases v with
  | true => simp [truth, truthName, exactly_of_peek_ne h hc]
  | false => simp [truth, truthName, exactly_of_peek_ne h hc]

/-- Behind a look ahead a name is read as without it. -/
theorem truth_of_peek (h : peek.run b = .ok (some d) b') : (truth v).run b' = (truth v).run b := by
  obtain ⟨b₁, hb, hb'⟩ := next_of_peek h
  have hname := run_exactly_congr (truthName_ne_nil v) (hb'.trans hb.symm)
  rw [truth, Scan.run_bind, Scan.run_bind, hname]

theorem peek_of_truth_absent (hn : Source.next.run b = .ok (some d) b₁)
    (h : (truth v).run b = .ok none b') : peek.run b' = .ok (some d) b' := by
  obtain ⟨found, hfound, habsent⟩ := Scan.run_bind_pure_eq_ok_iff.1 h
  cases found with
  | true => cases habsent
  | false => exact peek_of_exactly_absent (truthName_ne_nil v) hn hfound

end Truth

/-- To try the name that the next character tells is to try one name after the other: the answer or the
fault is the same, and so is the state, how much is pending and how much is left of the passage. -/
theorem boolean_eq_orElse {b : Buffered Passage} (hb : b.pending.length ≤ b.capacity)
    (hn : 1 ≤ b.capacity) : boolean.run b = ((truth true).orElse (truth false)).run b := by
  obtain ⟨b₁, hpeek, -⟩ := peek_redivides rfl hb hn
  rw [boolean, Scan.run_bind, hpeek, Outcome.bind_ok]
  split
  · next hc =>
    rw [hc] at hpeek
    obtain ⟨b₂, hnext, -⟩ := next_of_peek hpeek
    rw [truth_of_peek hpeek]
    cases h : (truth true).run b with
    | error e b' => rw [Scan.orElse_of_fault h]
    | ok a b' =>
      cases a with
      | some v => rw [Scan.orElse_of_present h]
      | none =>
        -- the other name fails on the character that is pending
        have hfirst := peek_of_truth_absent hnext h
        rw [Scan.orElse_of_absent h, truth_of_peek_ne hfirst (by decide)]
  · next hc =>
    -- the first name fails on the character that was looked at
    rw [hc] at hpeek
    rw [Scan.orElse_of_absent (truth_of_peek_ne hpeek (by decide))]
  · next ht hf =>
    -- both names fail on it
    have hfirst : (truth true).run b = .ok none b₁ := truth_of_peek_ne hpeek ht
    have hsecond : (truth false).run b₁ = .ok none b₁ := truth_of_peek_ne (peek_again hpeek) hf
    rw [Scan.orElse_of_absent hfirst, hsecond, Scan.run_pure]

end Buffered

/-- On the stack a truth value is read or found absent. -/
theorem Stack.exists_boolean (x : Text) : ∃ v s, boolean.run (⟨x⟩ : Stack) = .ok v s := by
  by_cases h : ∃ v, truthName v <+: x
  · obtain ⟨v, rest, rfl⟩ := h
    exact ⟨some v, ⟨rest⟩, boolean_run v rest⟩
  · exact ⟨none, ⟨x⟩, boolean_absent fun v hv => h ⟨v, hv⟩⟩

/-! ## What is read -/

namespace Buffered

variable {b : Buffered Passage} {t : Text} (hb : b.pending.length ≤ b.capacity)
  (ht : t.length ≤ b.capacity)

include hb ht

/-- A text that comes next is consumed. -/
theorem exactly_present (h : t <+: b.stream) :
    ∃ b', (exactly t).run b = .ok true b' ∧ b.Takes t b' := by
  obtain ⟨rest, hrest⟩ := h
  have hstack : (exactly t).run (⟨b.stream⟩ : Stack) = .ok true ⟨rest⟩ :=
    hrest ▸ Stack.exactly_run t rest
  obtain ⟨b', hrun, hs, w, hw⟩ :=
    run_of_stack_ok (Simulation.tracks_exactly t) (.exactly t) ht hb hstack
  exact ⟨b', hrun, hw.of_append (by rw [hs, hrest])⟩

/-- A text that does not come next is put together again. -/
theorem exactly_absent (h : ¬ t <+: b.stream) :
    ∃ b', (exactly t).run b = .ok false b' ∧ b.Takes [] b' := by
  obtain ⟨b', hrun, hs, w, hw⟩ :=
    run_of_stack_ok (Simulation.tracks_exactly t) (.exactly t) ht hb (Stack.exactly_absent h)
  exact ⟨b', hrun, hw.of_append hs.symm⟩

end Buffered

/-- **Fixed texts are read exactly, and a choice of two is made by one look.** Take a buffered passage
with no more pending than its capacity. If it has capacity for a text, that text is found exactly if the
stream begins with it, the empty text among them; then it has been consumed, and otherwise the stream and
the counter are as they were. If it has capacity for both names of a truth value, reading a truth value
ends as trying one name after the other: with the same answer, and in the same state, which is to say with
the same stream, the same counter and as much pending. -/
theorem fixed_texts_exact {b : Buffered Passage} (hb : b.pending.length ≤ b.capacity) :
    (∀ t : Text, t.length ≤ b.capacity →
      ∃ found b', (exactly t).run b = .ok found b' ∧ (found = true ↔ t <+: b.stream) ∧
        (found = true → b'.stream = b.stream.drop t.length ∧ b'.offset = b.offset + t.length) ∧
        (found = false → b'.stream = b.stream ∧ b'.offset = b.offset)) ∧
    (5 ≤ b.capacity → ∃ v b', boolean.run b = .ok v b' ∧
      ((truth true).orElse (truth false)).run b = .ok v b') := by
  constructor
  · intro t ht
    by_cases h : t <+: b.stream
    · obtain ⟨b', hrun, hw⟩ := exactly_present hb ht h
      have hrest : b'.stream = b.stream.drop t.length := by rw [hw.stream, List.drop_left]
      exact ⟨true, b', hrun, by simp [h], fun _ => ⟨hrest, hw.offset⟩, by simp⟩
    · obtain ⟨b', hrun, hw⟩ := exactly_absent hb ht h
      exact ⟨false, b', hrun, by simp [h], by simp, fun _ => ⟨hw.stream.symm, hw.offset⟩⟩
  · intro hn
    obtain ⟨v, s, hstack⟩ := Stack.exists_boolean b.stream
    obtain ⟨b', hrun, -⟩ := run_of_stack_ok Simulation.tracks_boolean .boolean hn hb hstack
    have hchoice := boolean_eq_orElse hb (Nat.le_trans (by decide) hn)
    exact ⟨v, b', hrun, hchoice.symm.trans hrun⟩

/-- A text of which two characters are pending, and one that differs from it at its end. The name that
fails on its last character leaves the buffer full, whichever way it was tried. -/
theorem fixed_texts_exact_straddling :
    let b : Buffered Passage := { source := ⟨['l', 's', 'y']⟩, pending := ['f', 'a'], capacity := 5 }
    (∃ b', (exactly ['f', 'a', 'l']).run b = .ok true b' ∧ b'.stream = ['s', 'y'] ∧ b'.offset = 3) ∧
    (∃ b', (exactly ['f', 'a', 'x']).run b = .ok false b' ∧ b'.stream = b.stream ∧ b'.offset = 0) ∧
    ((truth true).orElse (truth false)).run b =
      .ok none { source := ⟨[]⟩, pending := ['f', 'a', 'l', 's', 'y'], capacity := 5 } := by
  intro b
  obtain ⟨hexact, hchoice⟩ := fixed_texts_exact (b := b) (by decide)
  refine ⟨?_, ?_, ?_⟩
  · obtain ⟨found, b', hrun, hfound, htaken, -⟩ := hexact ['f', 'a', 'l'] (by decide)
    obtain rfl : found = true := hfound.2 (by decide)
    exact ⟨b', hrun, htaken rfl⟩
  · obtain ⟨found, b', hrun, hfound, -, huntouched⟩ := hexact ['f', 'a', 'x'] (by decide)
    obtain rfl : found = false := Bool.eq_false_iff.2 fun h => absurd (hfound.1 h) (by decide)
    exact ⟨b', hrun, huntouched rfl⟩
  · obtain ⟨v, b', hrun, hboth⟩ := hchoice (by decide)
    have hboolean : boolean.run b =
        .ok none { source := ⟨[]⟩, pending := ['f', 'a', 'l', 's', 'y'], capacity := 5 } := by
      decide +kernel
    rw [hboth, ← hrun, hboolean]

end Rescan
