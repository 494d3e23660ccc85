import Rescan.Stream.Buffered
import Rescan.Token.Delimited
import Rescan.Token.Exact
import Rescan.Token.Line
import Rescan.Token.Numeral

/-!
# What recognizers keep, and what they fail with

A recognizer touches its stream only by reading and by handing back. So a property of the stream that
these two keep is kept by every recognizer, and a fault that ends a recognizer is one of theirs, or one
of the few that recognizers have of their own: a literal that does not end, and a number out of range.

## Main definitions

* `Outcome.Ends`: in a state with a property, or in a fault of a certain kind.
* `Invariant`: a property that reading and handing back keep, with the faults they may end in.
* `Invariant.Keeps`: actions that keep it and end in no other faults.
* `Invariant.buffered`: a property of a source, as one of the buffered source.

## Main statements

* `Invariant.keeps_span`, `keeps_line`, `keeps_exactly`, `keeps_boolean`: recognizers without faults
  of their own.
* `Invariant.keeps_signed`, `keeps_delimited`: recognizers with one kind of fault.
-/

namespace Rescan

open CharStream

variable {σ α β : Type}

/-! ## Endings -/

/-- The action ended with a value in a state that satisfies `holds`, or in a fault that `allowed`
admits. -/
def Outcome.Ends (holds : σ → Prop) (allowed : Fault → Prop) : Outcome σ α → Prop
  | .ok _ s => holds s
  | .error e _ => allowed e

namespace Outcome.Ends

variable {holds : σ → Prop} {allowed : Fault → Prop} {o : Outcome σ α}

theorem bind {f : α → σ → Outcome σ β} (h : o.Ends holds allowed)
    (hf : ∀ a s, o = .ok a s → holds s → (f a s).Ends holds allowed) :
    (o.bind f).Ends holds allowed := by
  cases o with
  | ok a s => exact hf a s rfl h
  | error e s => exact h

theorem map {f : α → β} (h : o.Ends holds allowed) : (o.map f).Ends holds allowed := by
  cases o with
  | ok a s => exact h
  | error e s => exact h

end Outcome.Ends

/-! ## Invariants -/

/-- A property of the states of a stream, and faults, such that reading and handing back keep the
property or end in one of the faults. -/
structure Invariant (σ : Type) [CharStream σ] where
  /-- The property. -/
  holds : σ → Prop
  /-- The faults. -/
  allowed : Fault → Prop
  next : ∀ ⦃s⦄, holds s → (Source.next.run s).Ends holds allowed
  putBack : ∀ t ⦃s⦄, holds s → ((CharStream.putBack t).run s).Ends holds allowed

namespace Invariant

variable [CharStream σ] (I : Invariant σ)

/-- The action keeps the invariant, or ends in one of the faults. -/
def Keeps (x : Scan σ α) : Prop :=
  ∀ ⦃s⦄, I.holds s → (x.run s).Ends I.holds I.allowed

variable {I}

namespace Keeps

theorem pure (a : α) : I.Keeps (Pure.pure a : Scan σ α) :=
  fun _ h => h

theorem fail {e : Fault} (he : I.allowed e) : I.Keeps (Scan.fail e : Scan σ α) :=
  fun _ _ => he

theorem bind {x : Scan σ α} {f : α → Scan σ β} (hx : I.Keeps x) (hf : ∀ a, I.Keeps (f a)) :
    I.Keeps (x >>= f) := by
  intro s h
  rw [Scan.run_bind]
  exact (hx h).bind fun a s' _ h' => hf a h'

/-- What is known after the value. -/
theorem holds_of_ok {x : Scan σ α} {a : α} {s s' : σ} (hx : I.Keeps x) (h : I.holds s)
    (hrun : x.run s = .ok a s') : I.holds s' := by
  have hends := hx h
  rw [hrun] at hends
  exact hends

/-- What is known after a fault. -/
theorem allowed_of_error {x : Scan σ α} {e : Fault} {s s' : σ} (hx : I.Keeps x) (h : I.holds s)
    (hrun : x.run s = .error e s') : I.allowed e := by
  have hends := hx h
  rw [hrun] at hends
  exact hends

end Keeps

/-! ### Buffered sources -/

/-- What reading from a source keeps, reading from the buffered source keeps too, since the source is
asked only when nothing is pending. Handing back does not touch the source, but may overflow. -/
def buffered {τ : Type} [Source τ] (holds : τ → Prop) (allowed : Fault → Prop)
    (hnext : ∀ s, holds s → (Source.next.run s).Ends holds allowed)
    (hover : ∀ capacity requested, allowed (.overfull capacity requested)) :
    Invariant (Buffered τ) where
  holds b := holds b.source
  allowed := allowed
  next := by
    intro b h
    show (Buffered.next b).Ends _ _
    obtain ⟨source, pending, capacity, offset⟩ := b
    cases pending with
    | cons c pending => exact h
    | nil =>
      -- only now the source is asked
      have hends := hnext source h
      unfold Buffered.next
      dsimp only
      generalize Source.next.run source = o at hends ⊢
      cases o with
      | ok c source => cases c <;> exact hends
      | error e source => exact hends
  putBack := by
    intro t b h
    show (Buffered.putBack t b).Ends _ _
    unfold Buffered.putBack
    dsimp only
    split
    · exact hover _ _
    · exact h

/-! ### Reading and handing back -/

theorem keeps_next : I.Keeps (Source.next : Scan σ (Option Char)) :=
  I.next

theorem keeps_putBack (t : Text) : I.Keeps (CharStream.putBack t : Scan σ Unit) :=
  I.putBack t

theorem keeps_handBack (c : Option Char) : I.Keeps (handBack c : Scan σ Unit) := by
  cases c with
  | none => exact .pure ()
  | some c => exact keeps_putBack [c]

theorem keeps_peek : I.Keeps (peek : Scan σ (Option Char)) :=
  keeps_next.bind fun c => (keeps_handBack c).bind fun _ => .pure c

/-! ### Spans and lines -/

theorem keeps_span (p : Char → Bool) : I.Keeps (span p : Scan σ Text) := by
  intro s h
  show (spanFrom p s).Ends I.holds I.allowed
  fun_induction spanFrom p s with
  | case1 s c s₁ h₁ hp ih =>
    -- a character of the span
    exact (ih (keeps_next.holds_of_ok h h₁)).map
  | case2 s c s₁ h₁ hp =>
    -- the character that ends it
    exact (keeps_putBack [c] (keeps_next.holds_of_ok h h₁)).map
  | case3 s s₁ h₁ => exact keeps_next.holds_of_ok h h₁
  | case4 s e s₁ h₁ => exact keeps_next.allowed_of_error h h₁

theorem keeps_nonemptySpan (p : Char → Bool) : I.Keeps (nonemptySpan p : Scan σ (Option Text)) :=
  (keeps_span p).bind fun _ => .pure _

theorem keeps_lineFrom : I.Keeps (⟨lineFrom⟩ : Scan σ Text) := by
  intro s h
  show (lineFrom s).Ends I.holds I.allowed
  fun_induction lineFrom s with
  | case1 s c s₁ h₁ hc => exact keeps_next.holds_of_ok h h₁
  | case2 s c s₁ h₁ hc ih => exact (ih (keeps_next.holds_of_ok h h₁)).map
  | case3 s s₁ h₁ => exact keeps_next.holds_of_ok h h₁
  | case4 s e s₁ h₁ => exact keeps_next.allowed_of_error h h₁

theorem keeps_line : I.Keeps (line : Scan σ (Option Text)) := by
  refine keeps_next.bind fun c => ?_
  cases c with
  | none => exact .pure none
  | some c =>
    dsimp only
    split
    · exact .pure _
    · exact keeps_lineFrom.bind fun _ => .pure _

/-! ### Fixed texts and truth values -/

theorem keeps_follow (t : Text) : I.Keeps (follow t : Scan σ Text) := by
  induction t with
  | nil => exact .pure []
  | cons expected rest ih =>
    refine keeps_next.bind fun c => ?_
    cases c with
    | none => exact .pure []
    | some c =>
      dsimp only
      split
      · exact ih.bind fun _ => .pure _
      · exact .pure _

theorem keeps_exactly (t : Text) : I.Keeps (exactly t : Scan σ Bool) := by
  refine (keeps_follow t).bind fun seen => ?_
  split
  · exact .pure true
  · exact (keeps_putBack seen).bind fun _ => .pure false

theorem keeps_truth (b : Bool) : I.Keeps (truth b : Scan σ (Option Bool)) :=
  (keeps_exactly _).bind fun _ => .pure _

theorem keeps_boolean : I.Keeps (boolean : Scan σ (Option Bool)) := by
  refine keeps_peek.bind fun c => ?_
  split
  · exact keeps_truth true
  · exact keeps_truth false
  · exact .pure none

/-! ### Numbers -/

section Numbers

variable (hrange : ∀ numeral, I.allowed (.outOfRange numeral))

include hrange

theorem keeps_inRange (negative : Bool) (ds : Text) :
    I.Keeps (inRange negative ds : Scan σ Int) := by
  unfold inRange
  split
  · exact .pure _
  · exact .fail (hrange _)

theorem keeps_signed : I.Keeps (signed : Scan σ (Option Int)) := by
  have hdigits : I.Keeps (digits : Scan σ (Option Text)) := keeps_nonemptySpan Char.isDigit
  refine keeps_peek.bind fun c => ?_
  cases c with
  | none => exact .pure none
  | some c =>
    dsimp only
    split
    · refine keeps_next.bind fun sign => hdigits.bind fun ds => ?_
      cases ds with
      | none => exact (keeps_handBack sign).bind fun _ => .pure none
      | some ds => exact (keeps_inRange hrange _ ds).bind fun _ => .pure _
    split
    · refine hdigits.bind fun ds => ?_
      cases ds with
      | none => exact .pure none
      | some ds => exact (keeps_inRange hrange _ ds).bind fun _ => .pure _
    · exact .pure none

end Numbers

/-! ### Delimited literals -/

section Delimited

variable {d : Delimiters} (hclosing : I.allowed (.unclosed d.closing))

include hclosing

theorem keeps_contentFrom (before : Option Char) :
    I.Keeps (⟨contentFrom d before⟩ : Scan σ Text) := by
  intro s h
  show (contentFrom d before s).Ends I.holds I.allowed
  induction hleft : Source.left s using Nat.strongRecOn generalizing before s with
  | ind n ih =>
    subst hleft
    rw [contentFrom_eq]
    refine (keeps_next h).bind fun c s₁ hs₁ h₁ => ?_
    cases c with
    | none => exact hclosing
    | some c =>
      have hlt := Source.left_some hs₁
      dsimp only
      split
      · split
        · -- a look-ahead tells whether the literal ends here
          refine (keeps_peek h₁).bind fun ahead s₂ hs₂ h₂ => ?_
          split
          · exact (ih _ (Nat.lt_of_le_of_lt (steady_peek hs₂) hlt) _ h₂ rfl).map
          · exact h₂
        · exact h₁
      · exact (ih _ hlt _ h₁ rfl).map

theorem keeps_delimited : I.Keeps (delimited d : Scan σ (Option Text)) := by
  refine keeps_next.bind fun opening => ?_
  split
  · exact (keeps_contentFrom hclosing none).bind fun _ => .pure _
  · split
    · exact (keeps_handBack opening).bind fun _ => .pure none
    · exact .pure none

end Delimited

end Invariant

end Rescan
