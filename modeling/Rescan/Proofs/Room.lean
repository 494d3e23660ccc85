import Rescan.Proofs.Unbounded
import Rescan.Source.Bytes

/-!
# Room for what is handed back

A recognizer hands back characters that it has just read. Reading them took them out of the buffer,
as far as they were in it, so handing them back needs no more room than was there, or than they are
many themselves. So a recognizer that hands back at most `n` characters never overflows a buffer of
capacity `n`, however full the buffer is when it starts.

## Main definitions

* `Unbuffered`: sources whose own faults do not speak of room.
* `Scan.Fits`: actions that a certain capacity is enough for.

## Main statements

* `pending_next`, `pending_span`, `pending_follow`: how reading makes room.
* `Scan.Fits.span`, `line`, `exactly`, `boolean`, `unsigned`, `signed`, `delimited`: the room that
  each recognizer needs.
-/

namespace Rescan

open CharStream Buffered

variable {σ α β : Type}

/-! ## Outcomes that fit -/

/-- The buffer has the capacity `n` and keeps to it. -/
structure Buffered.Within (n : Nat) (b : Buffered σ) : Prop where
  capacity_eq : b.capacity = n
  pending_le : b.pending.length ≤ n

/-- The action did not end because there was no room, and the buffer keeps to its capacity. -/
structure Outcome.Fits (n : Nat) (o : Outcome (Buffered σ) α) : Prop where
  isOverfull_eq : o.isOverfull = false
  within : o.state.Within n

namespace Outcome

@[simp] theorem isOverfull_ok (a : α) (s : σ) : (ok a s).isOverfull = false := rfl

@[simp] theorem isOverfull_error (e : Fault) (s : σ) :
    (error e s : Outcome σ α).isOverfull = e.isOverfull := rfl

@[simp] theorem isOverfull_map (f : α → β) (o : Outcome σ α) :
    (o.map f).isOverfull = o.isOverfull := by
  cases o <;> rfl

namespace Fits

variable {n : Nat} {b : Buffered σ} {o : Outcome (Buffered σ) α}

theorem ok {a : α} (h : b.Within n) : (Outcome.ok a b).Fits n :=
  ⟨rfl, h⟩

theorem error {e : Fault} (he : e.isOverfull = false) (h : b.Within n) :
    (Outcome.error e b : Outcome (Buffered σ) α).Fits n :=
  ⟨he, h⟩

/-- Where there is room no fault is about room. -/
theorem not_isOverfull {e : Fault} (h : o.Fits n) (ho : o = .error e b) : ¬ e.isOverfull = true := by
  have hnot := h.isOverfull_eq
  rw [ho] at hnot
  exact fun hover => Bool.false_ne_true (hnot.symm.trans hover)

theorem bind {f : α → Buffered σ → Outcome (Buffered σ) β} (h : o.Fits n)
    (hf : ∀ a s, o = .ok a s → s.Within n → (f a s).Fits n) : (o.bind f).Fits n := by
  cases o with
  | ok a s => exact hf a s rfl h.within
  | error e s => exact error h.isOverfull_eq h.within

theorem map {f : α → β} (h : o.Fits n) : (o.map f).Fits n := by
  cases o with
  | ok a s => exact ok h.within
  | error e s => exact error h.isOverfull_eq h.within

end Fits

end Outcome

/-! ## Actions that fit -/

/-- The capacity `room` is enough for the action, whatever is pending when it starts. -/
def Scan.Fits (room : Nat) (x : Scan (Buffered σ) α) : Prop :=
  ∀ ⦃n b⦄, room ≤ n → b.Within n → (x.run b).Fits n

namespace Scan.Fits

variable {room room' : Nat} {x : Scan (Buffered σ) α}

theorem pure (a : α) : Fits room (Pure.pure a : Scan (Buffered σ) α) :=
  fun _ _ _ h => .ok h

theorem fail {e : Fault} (he : e.isOverfull = false) :
    Fits room (Scan.fail e : Scan (Buffered σ) α) :=
  fun _ _ _ h => .error he h

theorem bind {f : α → Scan (Buffered σ) β} (hx : Fits room x) (hf : ∀ a, Fits room (f a)) :
    Fits room (x >>= f) := by
  intro n b hn h
  rw [Scan.run_bind]
  exact (hx hn h).bind fun a s _ hs => hf a hn hs

theorem mono (hx : Fits room x) (h : room ≤ room') : Fits room' x :=
  fun _ _ hn => hx (Nat.le_trans h hn)

end Scan.Fits

/-! ## Reading and handing back -/

/-- Sources that are no buffers: where one of them fails, the fault is not about room. -/
class Unbuffered (σ : Type) [Source σ] : Prop where
  isOverfull_next : ∀ s : σ, (Source.next.run s).isOverfull = false

instance : Unbuffered Passage where
  isOverfull_next p := by
    obtain ⟨rest⟩ := p
    cases rest <;> rfl

section Next

variable [Source σ] {b b' : Buffered σ} {c : Option Char}

/-- A character that is read leaves room for itself, unless there was nothing pending. -/
theorem pending_next (h : Source.next.run b = .ok c b') :
    b'.capacity = b.capacity ∧ b'.pending.length ≤ b.pending.length ∧
      b'.pending.length + c.toList.length ≤ max b.pending.length 1 := by
  cases c with
  | some c =>
    rcases next_eq_some h with ⟨t, hp, rfl⟩ | ⟨hp, source, -, rfl⟩
    · simp [hp]
    · simp [hp]
  | none =>
    obtain ⟨hp, source, -, rfl⟩ := next_eq_none h
    simp [hp]

/-- Handing back fits if there is room for everything that is then pending. -/
theorem fits_putBack {n : Nat} {t : Text} (h : b.Within n)
    (hroom : b.pending.length + t.length ≤ n) : ((CharStream.putBack t).run b).Fits n := by
  have hput : (CharStream.putBack t).run b = _ := putBack_eq_ok_iff.2 ⟨h.capacity_eq ▸ hroom, rfl⟩
  rw [hput]
  refine .ok ⟨h.capacity_eq, ?_⟩
  rw [List.length_append]
  omega

theorem fits_handBack {n : Nat} (h : b.Within n)
    (hroom : b.pending.length + c.toList.length ≤ n) : ((handBack c).run b).Fits n := by
  cases c with
  | none => exact .ok h
  | some c => exact fits_putBack h hroom

/-- The answer of a read can be handed back at once. -/
theorem fits_handBack_next {n : Nat} (hn : 1 ≤ n) (h : b.Within n)
    (hb : Source.next.run b = .ok c b') : ((handBack c).run b').Fits n := by
  obtain ⟨hc, hle, hroom⟩ := pending_next hb
  have hp := h.pending_le
  exact fits_handBack ⟨hc.trans h.capacity_eq, by omega⟩ (by omega)

end Next

variable [Source σ] [Unbuffered σ]

namespace Scan.Fits

variable {room : Nat}

theorem next : Fits room (Source.next : Scan (Buffered σ) (Option Char)) := by
  intro n b _ h
  have hp := h.pending_le
  cases hb : (Source.next : Scan (Buffered σ) (Option Char)).run b with
  | ok c b' =>
    obtain ⟨hc, hle, -⟩ := pending_next hb
    exact .ok ⟨hc.trans h.capacity_eq, by omega⟩
  | error e b' =>
    -- the fault is one of the source, which is no buffer
    obtain ⟨-, source, hs, rfl⟩ := next_eq_error hb
    have he := Unbuffered.isOverfull_next b.source
    rw [hs] at he
    exact .error he ⟨h.capacity_eq, hp⟩

theorem peek : Fits 1 (CharStream.peek : Scan (Buffered σ) (Option Char)) := by
  intro n b hn h
  exact (next hn h).bind fun c b' hb _ =>
    (fits_handBack_next hn h hb).bind fun _ _ _ hs => .ok hs

/-! ## Spans -/

theorem span (p : Char → Bool) : Fits 1 (span p : Scan (Buffered σ) Text) := by
  intro n b hn h
  change (spanFrom p b).Fits n
  induction hleft : Source.left b using Nat.strongRecOn generalizing b with
  | ind m ih =>
    subst hleft
    rw [spanFrom_eq]
    refine (next hn h).bind fun c b' hb h' => ?_
    cases c with
    | none => exact .ok h'
    | some c =>
      dsimp only
      split
      · exact (ih _ (Source.left_some hb) h' rfl).map
      · -- the character that ends the span goes back to where it came from
        have hback : ((CharStream.putBack [c]).run b').Fits n := fits_handBack_next hn h hb
        exact hback.map

theorem nonemptySpan (p : Char → Bool) :
    Fits 1 (nonemptySpan p : Scan (Buffered σ) (Option Text)) :=
  (span p).bind fun _ => pure _

end Scan.Fits

omit [Unbuffered σ] in
/-- What is pending after a span: less by the span, but for the character that ended it. -/
theorem pending_span {p : Char → Bool} {b b' : Buffered σ} {t : Text}
    (h : (span p).run b = .ok t b') : b'.pending.length ≤ max (b.pending.length - t.length) 1 := by
  change spanFrom p b = _ at h
  fun_induction spanFrom p b generalizing t with
  | case1 b c b₁ h₁ hp ih =>
    -- a character of the span
    obtain ⟨u, hu, rfl⟩ := Outcome.map_eq_ok_iff.1 h
    have := ih hu
    obtain ⟨-, -, hroom⟩ := pending_next h₁
    simp only [Option.toList_some, List.length_cons] at hroom ⊢
    omega
  | case2 b c b₁ h₁ hp =>
    -- the character that ends it
    obtain ⟨_, hu, rfl⟩ := Outcome.map_eq_ok_iff.1 h
    obtain ⟨-, rfl⟩ := putBack_eq_ok_iff.1 hu
    obtain ⟨-, -, hroom⟩ := pending_next h₁
    simp only [Option.toList_some, List.length_singleton, List.length_append,
      List.length_nil] at hroom ⊢
    omega
  | case3 b b₁ h₁ =>
    cases h
    obtain ⟨-, hle, -⟩ := pending_next h₁
    simp only [List.length_nil]
    omega
  | case4 => cases h

/-! ## Fixed texts and truth values -/

omit [Unbuffered σ] in
/-- What is read for a text can be handed back if it fits by itself, or if it fitted before. -/
theorem pending_follow {t seen : Text} {b b' : Buffered σ} (h : (follow t).run b = .ok seen b') :
    b'.pending.length + seen.length ≤ max b.pending.length seen.length ∧
      seen.length ≤ t.length := by
  induction t generalizing b seen with
  | nil =>
    cases h
    simp
  | cons expected rest ih =>
    obtain ⟨c, b₁, h₁, h⟩ := Scan.run_bind_eq_ok_iff.1 h
    obtain ⟨-, hle, hroom⟩ := pending_next h₁
    cases c with
    | none =>
      cases h
      simp only [List.length_nil, List.length_cons]
      omega
    | some c =>
      rw [Option.toList_some, List.length_singleton] at hroom
      by_cases hc : c = expected
      · -- one character more that agrees
        simp only [hc, if_true] at h
        obtain ⟨u, b₂, h₂, h⟩ := Scan.run_bind_eq_ok_iff.1 h
        cases h
        obtain ⟨hu, hlen⟩ := ih h₂
        simp only [List.length_cons]
        omega
      · simp only [hc, if_false] at h
        cases h
        simp only [List.length_cons, List.length_nil]
        omega

namespace Scan.Fits

variable {room : Nat}

theorem follow (t : Text) : Fits room (follow t : Scan (Buffered σ) Text) := by
  induction t with
  | nil => exact pure _
  | cons expected rest ih =>
    refine next.bind fun c => ?_
    cases c with
    | none => exact pure _
    | some c =>
      dsimp only
      split
      · exact ih.bind fun _ => pure _
      · exact pure _

theorem exactly (t : Text) : Fits t.length (exactly t : Scan (Buffered σ) Bool) := by
  intro n b hn h
  refine (follow t hn h).bind fun seen b' hb h' => ?_
  dsimp only
  split
  · exact .ok h'
  · -- everything that was read is handed back at once
    obtain ⟨hroom, hlen⟩ := pending_follow hb
    have hp := h.pending_le
    have hback : ((CharStream.putBack seen).run b').Fits n := fits_putBack h' (by omega)
    exact hback.bind fun _ _ _ hs => .ok hs

theorem truth (b : Bool) : Fits 5 (truth b : Scan (Buffered σ) (Option Bool)) := by
  have hlen : (truthName b).length ≤ 5 := by cases b <;> decide
  exact ((exactly _).mono hlen).bind fun _ => pure _

theorem boolean : Fits 5 (boolean : Scan (Buffered σ) (Option Bool)) := by
  refine (peek.mono (by decide)).bind fun c => ?_
  split
  · exact truth true
  · exact truth false
  · exact pure _

/-! ## Numbers -/

omit [Source σ] [Unbuffered σ] in
theorem inRange (negative : Bool) (ds : Text) :
    Fits room (inRange negative ds : Scan (Buffered σ) Int) := by
  unfold Rescan.inRange
  split
  · exact pure _
  · exact fail rfl

theorem unsigned : Fits 1 (unsigned : Scan (Buffered σ) (Option Nat)) := by
  refine (nonemptySpan _).bind fun ds => ?_
  cases ds with
  | none => exact pure _
  | some ds =>
    dsimp only
    split
    · exact pure _
    · exact fail rfl

/-- A sign is handed back after the character behind it, so there has to be room for both. -/
theorem signed : Fits 2 (signed : Scan (Buffered σ) (Option Int)) := by
  have hdigits : Fits 2 (digits : Scan (Buffered σ) (Option Text)) :=
    (nonemptySpan _).mono (by decide)
  refine (peek.mono (by decide)).bind fun c => ?_
  cases c with
  | none => exact pure _
  | some c =>
    dsimp only
    split
    · intro n b hn h
      refine (next hn h).bind fun sign b₁ hb₁ h₁ => ?_
      refine (hdigits hn h₁).bind fun ds b₂ hb₂ h₂ => ?_
      cases ds with
      | some ds => exact ((inRange _ _).bind fun _ => pure _) hn h₂
      | none =>
        -- no digits, so that an empty span was read
        obtain ⟨t, b₃, hb₃, ht⟩ := Scan.run_bind_eq_ok_iff.1 hb₂
        cases t with
        | cons c t => cases ht
        | nil =>
          cases ht
          have hspan := pending_span hb₃
          obtain ⟨-, -, hroom⟩ := pending_next hb₁
          have hp := h.pending_le
          have hsign : sign.toList.length ≤ 1 := by cases sign <;> simp
          rw [List.length_nil, Nat.sub_zero] at hspan
          exact (fits_handBack h₂ (by omega)).bind fun _ _ _ hs => .ok hs
    · split
      · refine hdigits.bind fun ds => ?_
        cases ds with
        | none => exact pure _
        | some ds => exact (inRange _ _).bind fun _ => pure _
      · exact pure _

/-! ## Delimited literals and lines -/

theorem contentFrom {n : Nat} {d : Delimiters} {before : Option Char} {b : Buffered σ} (hn : 1 ≤ n)
    (h : b.Within n) : (contentFrom d before b).Fits n := by
  induction hleft : Source.left b using Nat.strongRecOn generalizing b before with
  | ind m ih =>
    subst hleft
    rw [contentFrom_eq]
    refine (next hn h).bind fun c b₁ hb₁ h₁ => ?_
    cases c with
    | none => exact .error rfl h₁
    | some c =>
      have hlt := Source.left_some hb₁
      dsimp only
      split
      · split
        · -- whether the literal ends is seen one character ahead
          refine (peek hn h₁).bind fun ahead b₂ hb₂ h₂ => ?_
          split
          · exact (ih _ (Nat.lt_of_le_of_lt (steady_peek hb₂) hlt) h₂ rfl).map
          · exact .ok h₂
        · exact .ok h₁
      · exact (ih _ hlt h₁ rfl).map

theorem delimited (d : Delimiters) : Fits 1 (delimited d : Scan (Buffered σ) (Option Text)) := by
  intro n b hn h
  refine (next hn h).bind fun opening b₁ hb₁ h₁ => ?_
  dsimp only
  split
  · exact (contentFrom hn h₁).bind fun _ _ _ hs => .ok hs
  · split
    · exact (fits_handBack_next hn h hb₁).bind fun _ _ _ hs => .ok hs
    · exact .ok h₁

theorem lineFrom {n : Nat} {b : Buffered σ} (h : b.Within n) : (lineFrom b).Fits n := by
  induction hleft : Source.left b using Nat.strongRecOn generalizing b with
  | ind m ih =>
    subst hleft
    rw [lineFrom_eq]
    refine (next (Nat.zero_le n) h).bind fun c b₁ hb₁ h₁ => ?_
    cases c with
    | none => exact .ok h₁
    | some c =>
      dsimp only
      split
      · exact .ok h₁
      · exact (ih _ (Source.left_some hb₁) h₁ rfl).map

/-- A line hands nothing back. -/
theorem line : Fits room (line : Scan (Buffered σ) (Option Text)) := by
  refine next.bind fun c => ?_
  cases c with
  | none => exact pure _
  | some c =>
    dsimp only
    split
    · exact pure _
    · intro n b _ h
      exact (lineFrom h).bind fun _ _ _ hs => .ok hs

end Scan.Fits

end Rescan
