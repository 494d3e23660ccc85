import Rescan.Proofs.Logged

/-!
# What recognizers do for a character

A recognizer that looks ahead reads a character and hands it back, and the next one reads it again. So
what an action consumes does not tell what was done for it. Here every character that is left is worth a
number of actions: reading it gives them, and handing it back takes them. What an action gains by its
value is its *credit*, which the actions behind it may spend; the rest of what it does has to be a
constant.

## Main definitions

* `Logged.potential`: the actions so far, and those that the characters left are worth.
* `Scan.Spends`: actions that raise the potential by no more than a constant, less their credit.

## Main statements

* `Scan.Spends.bind`: costs add up, and a credit can be spent.
* `spends_next`, `spends_putBack`: what reading gains and handing back costs.
* `spends_span`, `spends_line`, `spends_exactly`, `spends_boolean`, `spends_signed`,
  `spends_delimited`: what each recognizer costs.
-/

namespace Rescan

open CharStream

variable {σ α β : Type} [CharStream σ]

/-! ## The potential -/

/-- The actions in the log and twenty-six for each character that is left. This pays for a statement
whose key is one character, whatever is tried as its value. -/
def Logged.potential (l : Logged σ) : Nat :=
  l.visited.length + 26 * Source.left l.stream

theorem Logged.visited_le_potential (l : Logged σ) : l.visited.length ≤ l.potential :=
  Nat.le_add_right _ _

/-- The potential after a value, with the credit for the value, is at most `m`. After a fault nothing
will be done any more, so it is only the actions until then that are at most `m`. -/
def Outcome.Spends (m : Nat) (o : Outcome (Logged σ) α) (credit : α → Nat := fun _ => 0) : Prop :=
  match o with
  | .ok a l => l.potential + credit a ≤ m
  | .error _ l => l.visited.length ≤ m

namespace Outcome.Spends

variable {m m' : Nat} {o : Outcome (Logged σ) α} {credit credit' : α → Nat} {credit₂ : β → Nat}

theorem mono (h : o.Spends m credit) (hm : m ≤ m') (hc : ∀ a, m + credit' a ≤ m' + credit a) :
    o.Spends m' credit' := by
  cases o with
  | ok a l =>
    have hle : l.potential + credit a ≤ m := h
    have hshift := hc a
    show l.potential + credit' a ≤ m'
    omega
  | error e l => exact Nat.le_trans h hm

theorem bind {f : α → Logged σ → Outcome (Logged σ) β} (h : o.Spends m credit) (hm : m ≤ m')
    (hf : ∀ a l, o = .ok a l → l.potential + credit a ≤ m → (f a l).Spends m' credit₂) :
    (o.bind f).Spends m' credit₂ := by
  cases o with
  | ok a l => exact hf a l rfl h
  | error e l => exact Nat.le_trans h hm

theorem map {f : α → β} (h : o.Spends m fun a => credit₂ (f a)) : (o.map f).Spends m credit₂ := by
  cases o with
  | ok a l => exact h
  | error e l => exact h

/-- Every action until then is in the log. -/
theorem visited_le (h : o.Spends m credit) : o.state.visited.length ≤ m := by
  cases o with
  | ok a l =>
    have hle : l.potential + credit a ≤ m := h
    exact Nat.le_trans l.visited_le_potential (Nat.le_trans (Nat.le_add_right _ _) hle)
  | error e l => exact h

end Outcome.Spends

/-- From every state, the action raises the potential by at most `k`, less the credit for its value. -/
def Scan.Spends (k : Nat) (x : Scan (Logged σ) α) (credit : α → Nat := fun _ => 0) : Prop :=
  ∀ l, (x.run l).Spends (l.potential + k) credit

namespace Scan.Spends

variable {k k' : Nat} {x : Scan (Logged σ) α} {credit : α → Nat} {credit₂ : β → Nat}

/-- A value is answered for nothing, and its credit has to be there. -/
theorem pure_of_le {a : α} (h : credit a ≤ k) :
    Spends k (Pure.pure a : Scan (Logged σ) α) credit :=
  fun _ => Nat.add_le_add_left h _

theorem pure (a : α) : Spends k (Pure.pure a : Scan (Logged σ) α) :=
  pure_of_le (Nat.zero_le k)

theorem fail (e : Fault) : Spends k (Scan.fail e : Scan (Logged σ) α) :=
  fun l => Nat.le_trans l.visited_le_potential (Nat.le_add_right _ _)

theorem mono (hx : Spends k x credit) (hk : k ≤ k') : Spends k' x credit :=
  fun l => (hx l).mono (Nat.add_le_add_left hk _) fun _ => by omega

theorem of_run {l : Logged σ} {o : Outcome (Logged σ) α} (hx : Spends k x credit)
    (h : x.run l = o) : o.Spends (l.potential + k) credit :=
  h ▸ hx l

/-- Costs add up, and the second action can spend the credit of the first. -/
theorem bind {f : α → Scan (Logged σ) β} (hx : Spends k x credit)
    (hf : ∀ a, Spends (k' + credit a) (f a) credit₂) : Spends (k + k') (x >>= f) credit₂ := by
  intro l
  rw [Scan.run_bind]
  refine (hx l).bind (by omega) fun a l' _ hl' => ?_
  exact (hf a l').mono (by omega) fun b => by omega

/-- A credit may be left unused. -/
theorem forget (hx : Spends k x credit) : Spends k x :=
  fun l => (hx l).mono (Nat.le_refl _) fun a => Nat.le_add_right _ (credit a)

theorem answer {f : α → β} (hx : Spends k x credit) : Spends k (do return f (← x)) := by
  show Spends (k + 0) _
  exact hx.bind fun a => pure (f a)

end Scan.Spends

/-! ## Reading and handing back -/

/-- Reading gains what the character is worth. -/
theorem spends_next :
    Scan.Spends 1 (Source.next : Scan (Logged σ) (Option Char)) fun c => 26 * c.toList.length := by
  intro l
  cases h : (Source.next : Scan (Logged σ) (Option Char)).run l with
  | ok c l₁ =>
    obtain ⟨s, hs, rfl⟩ := Outcome.mapState_eq_ok_iff.1 h
    have hleft : Source.left s + c.toList.length ≤ Source.left l.stream := by
      cases c with
      | none => exact Source.left_none hs
      | some c => exact Source.left_some hs
    show (l.visited.length + 1) + 26 * Source.left s + 26 * c.toList.length ≤
      (l.visited.length + 26 * Source.left l.stream) + 1
    omega
  | error e l₁ =>
    obtain ⟨s, hs, rfl⟩ := Outcome.mapState_eq_error_iff.1 h
    exact Nat.succ_le_succ l.visited_le_potential

/-- Handing a text back costs what its characters are worth, and the action itself. -/
theorem spends_putBack (t : Text) :
    Scan.Spends (1 + 26 * t.length) (CharStream.putBack t : Scan (Logged σ) Unit) := by
  intro l
  cases h : (CharStream.putBack t : Scan (Logged σ) Unit).run l with
  | ok _ l₁ =>
    obtain ⟨s, hs, rfl⟩ := Outcome.mapState_eq_ok_iff.1 h
    have hleft := CharStream.left_putBack hs
    show (l.visited.length + 1) + 26 * Source.left s ≤
      (l.visited.length + 26 * Source.left l.stream) + (1 + 26 * t.length)
    omega
  | error e l₁ =>
    obtain ⟨s, hs, rfl⟩ := Outcome.mapState_eq_error_iff.1 h
    have hle := l.visited_le_potential
    show l.visited.length + 1 ≤ l.potential + (1 + 26 * t.length)
    omega

theorem spends_handBack (c : Option Char) :
    Scan.Spends (1 + 26 * c.toList.length) (handBack c : Scan (Logged σ) Unit) := by
  cases c with
  | none => exact .pure ()
  | some c => exact spends_putBack [c]

/-- The credit of the read pays for handing back. -/
theorem spends_peek : Scan.Spends 2 (peek : Scan (Logged σ) (Option Char)) := by
  show Scan.Spends (1 + 1) _
  exact spends_next.bind fun c => (spends_handBack c).answer

/-- What was looked at is there to be read, and reading it gains what it is worth. -/
theorem gains_next_peek {l l₁ : Logged σ} {c : Char} (hpeek : peek.run l = .ok (some c) l₁) :
    ∃ l₂, Source.next.run l₁ = .ok (some c) l₂ ∧ l₂.potential + 26 ≤ l₁.potential + 1 := by
  obtain ⟨l₂, hnext⟩ := next_peek hpeek
  exact ⟨l₂, hnext, spends_next.of_run hnext⟩

/-! ## Spans and lines -/

/-- Each character of a span keeps its credit, but for the action itself, and the look-ahead that ends
the span is not paid for. -/
theorem spends_span (p : Char → Bool) :
    Scan.Spends 2 (span p : Scan (Logged σ) Text) fun t => 25 * t.length := by
  intro l
  show (spanFrom p l).Spends (l.potential + 2) _
  induction hleft : Source.left l using Nat.strongRecOn generalizing l with
  | ind n ih =>
    subst hleft
    rw [spanFrom_eq]
    refine (spends_next l).bind (by omega) fun c l₁ hl₁ hle => ?_
    cases c with
    | none => exact Nat.le_trans hle (Nat.le_succ _)
    | some c =>
      have hgain : l₁.potential + 26 ≤ l.potential + 1 := hle
      dsimp only
      split
      · -- the character adds to the credit what is left of its worth after one action
        have hrest := ih _ (Source.left_some hl₁) l₁ rfl
        refine (hrest.mono (by omega) fun t => ?_).map
        simp only [List.length_cons]
        omega
      · -- the character that ends the span is handed back, and the two actions remain
        have hback : ((CharStream.putBack [c]).run l₁).Spends (l₁.potential + 27) :=
          spends_putBack [c] l₁
        exact (hback.mono (by omega) fun _ => by simp only [List.length_nil]; omega).map

/-- A span that is present has gained what its first character is worth. -/
theorem spends_nonemptySpan (p : Char → Bool) :
    Scan.Spends 2 (nonemptySpan p : Scan (Logged σ) (Option Text)) fun t => 25 * t.toList.length := by
  show Scan.Spends (2 + 0) _ _
  refine (spends_span p).bind fun t => .pure_of_le ?_
  cases t with
  | nil => exact Nat.le_refl 0
  | cons c t =>
    show 25 * 1 ≤ 0 + 25 * (t.length + 1)
    omega

theorem spends_lineFrom : Scan.Spends 1 (⟨lineFrom⟩ : Scan (Logged σ) Text) := by
  intro l
  show (lineFrom l).Spends (l.potential + 1)
  induction hleft : Source.left l using Nat.strongRecOn generalizing l with
  | ind n ih =>
    subst hleft
    rw [lineFrom_eq]
    refine (spends_next l).bind (Nat.le_refl _) fun c l₁ hl₁ hle => ?_
    cases c with
    | none => exact hle
    | some c =>
      have hgain : l₁.potential + 26 ≤ l.potential + 1 := hle
      dsimp only
      split
      · exact Nat.le_trans (Nat.le_add_right _ 26) hgain
      · have hrest := ih _ (Source.left_some hl₁) l₁ rfl
        exact (hrest.mono (by omega) fun _ => by omega).map

theorem spends_line : Scan.Spends 1 (line : Scan (Logged σ) (Option Text)) := by
  show Scan.Spends (1 + 0) _
  refine spends_next.bind fun c => ?_
  cases c with
  | none => exact .pure none
  | some c =>
    dsimp only
    split
    · exact .pure _
    · show Scan.Spends 26 _
      exact spends_lineFrom.answer.mono (by decide)

/-- A line of which a character was seen gains what that is worth, less the actions at both of its
ends. -/
theorem spends_line_peek {l l₁ : Logged σ} {c : Char} {m : Nat}
    (hpeek : peek.run l = .ok (some c) l₁) (hm : l₁.potential ≤ m + 24) :
    (line.run l₁).Spends m := by
  obtain ⟨l₂, hnext, hgain⟩ := gains_next_peek hpeek
  rw [line, Scan.run_bind, hnext, Outcome.bind_ok]
  dsimp only
  split
  · show l₂.potential + 0 ≤ m
    omega
  · have hrest := (spends_lineFrom (σ := σ)).answer (f := fun t => some (c :: t)) l₂
    exact hrest.mono (by omega) fun _ => by omega

/-! ## Fixed texts and truth values -/

/-- The characters that were read keep what they are worth, so that they can be handed back. -/
theorem spends_follow (t : Text) :
    Scan.Spends (t.length + 1) (follow t : Scan (Logged σ) Text) fun seen => 26 * seen.length := by
  induction t with
  | nil => exact .pure_of_le (Nat.zero_le _)
  | cons expected rest ih =>
    rw [List.length_cons, Nat.add_comm (rest.length + 1)]
    refine spends_next.bind fun c => ?_
    cases c with
    | none => exact .pure_of_le (Nat.zero_le _)
    | some c =>
      dsimp only
      split
      · -- one character more that agrees
        show Scan.Spends ((rest.length + 1) + 26) _ _
        exact ih.bind fun seen => .pure_of_le (by simp only [List.length_cons]; omega)
      · exact .pure_of_le (Nat.le_add_left _ _)

theorem spends_exactly (t : Text) :
    Scan.Spends (t.length + 2) (exactly t : Scan (Logged σ) Bool) := by
  show Scan.Spends ((t.length + 1) + 1) _
  refine (spends_follow t).bind fun seen => ?_
  split
  · exact .pure true
  · exact (spends_putBack seen).answer

theorem spends_truth (b : Bool) : Scan.Spends 7 (truth b : Scan (Logged σ) (Option Bool)) := by
  have hlen : (truthName b).length ≤ 5 := by cases b <;> decide
  exact ((spends_exactly (truthName b)).mono (Nat.add_le_add_right hlen 2)).answer

theorem spends_boolean : Scan.Spends 9 (boolean : Scan (Logged σ) (Option Bool)) := by
  show Scan.Spends (2 + 7) _
  refine spends_peek.bind fun c => ?_
  split
  · exact spends_truth true
  · exact spends_truth false
  · exact .pure none

/-! ## Numbers -/

theorem spends_inRange (k : Nat) (negative : Bool) (ds : Text) :
    Scan.Spends k (inRange negative ds : Scan (Logged σ) Int) := by
  unfold inRange
  split
  · exact .pure _
  · exact .fail _

/-- Two look-aheads, and a sign that is handed back for what it has gained. -/
theorem spends_signed : Scan.Spends 6 (signed : Scan (Logged σ) (Option Int)) := by
  have hdigits : Scan.Spends 2 (digits : Scan (Logged σ) (Option Text)) fun ds =>
      25 * ds.toList.length := spends_nonemptySpan Char.isDigit
  show Scan.Spends (2 + 4) _
  refine spends_peek.bind fun c => ?_
  cases c with
  | none => exact .pure none
  | some c =>
    dsimp only
    split
    · show Scan.Spends (1 + 3) _
      refine spends_next.bind fun sign => ?_
      -- the digits come first, while the credit for the sign is kept
      have hsign : 3 + 26 * sign.toList.length = 2 + (1 + 26 * sign.toList.length) := by omega
      rw [hsign]
      refine hdigits.bind fun ds => ?_
      cases ds with
      | none => exact (spends_handBack sign).answer
      | some ds => exact (spends_inRange _ _ ds).answer
    split
    · show Scan.Spends (2 + 2) _
      refine hdigits.bind fun ds => ?_
      cases ds with
      | none => exact .pure none
      | some ds => exact (spends_inRange _ _ ds).answer
    · exact .pure none

/-! ## Delimited literals -/

/-- A delimiter pays for the look-ahead that tells whether it is doubled. -/
theorem spends_contentFrom (d : Delimiters) (before : Option Char) :
    Scan.Spends 1 (⟨contentFrom d before⟩ : Scan (Logged σ) Text) := by
  intro l
  show (contentFrom d before l).Spends (l.potential + 1)
  induction hleft : Source.left l using Nat.strongRecOn generalizing before l with
  | ind n ih =>
    subst hleft
    rw [contentFrom_eq]
    refine (spends_next l).bind (Nat.le_refl _) fun c l₁ hl₁ hle => ?_
    cases c with
    | none => exact Nat.le_trans l₁.visited_le_potential hle
    | some c =>
      have hgain : l₁.potential + 26 ≤ l.potential + 1 := hle
      have hlt := Source.left_some hl₁
      dsimp only
      split
      · split
        · -- the delimiter has gained more than the look-ahead costs
          refine (spends_peek l₁).bind (by omega) fun ahead l₂ hl₂ hle₂ => ?_
          split
          · have hlt₂ := Nat.lt_of_le_of_lt (steady_peek hl₂) hlt
            exact ((ih _ hlt₂ _ l₂ rfl).mono (by omega) fun _ => by omega).map
          · show l₂.potential + 0 ≤ l.potential + 1
            omega
        · exact Nat.le_trans (Nat.le_add_right _ 26) hgain
      · exact ((ih _ hlt _ l₁ rfl).mono (by omega) fun _ => by omega).map

theorem spends_delimited (d : Delimiters) :
    Scan.Spends 2 (delimited d : Scan (Logged σ) (Option Text)) := by
  show Scan.Spends (1 + 1) _
  refine spends_next.bind fun opening => ?_
  split
  · exact ((spends_contentFrom d none).mono (Nat.le_add_right 1 _)).answer
  split
  · exact (spends_handBack opening).answer
  · exact .pure none

end Rescan
