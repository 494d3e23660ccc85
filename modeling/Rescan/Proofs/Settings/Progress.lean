import Rescan.Proofs.Effort
import Rescan.Proofs.Invariant
import Rescan.Proofs.Settings.Transfer

/-!
# How reading settings goes on

The reader of settings goes from one statement to the next for as long as there is a key. Its faults are
those of the stream and those of quoted texts and numbers. Every statement has a key of at least one
character, so there are no more statements than characters, and what a key is worth pays for everything
that is tried behind it.

## Main statements

* `Invariant.ends_items`: what reading a document keeps, and what it can end in.
* `length_items_le`: a document has no more items than characters.
* `spends_items`: the number of actions is linear in what is to be read.
* `read_logged`: the states on the way, of which none has more than five characters pending.
-/

namespace Rescan

open CharStream Settings Buffered

variable {σ : Type} [CharStream σ]

/-! ## Invariants of the reader -/

namespace Invariant

variable {I : Invariant σ}

theorem keeps_passOver (p : Char → Bool) : I.Keeps (passOver p : Scan σ Text) := by
  intro s h
  show (passOverFrom p s).Ends I.holds I.allowed
  induction hleft : Source.left s using Nat.strongRecOn generalizing s with
  | ind i ih =>
    subst hleft
    rw [passOverFrom_eq]
    refine (keeps_peek h).bind fun c s₁ hs₁ h₁ => ?_
    cases c with
    | none => exact h₁
    | some c =>
      dsimp only
      split
      · refine (keeps_next h₁).bind fun d s₂ hs₂ h₂ => ?_
        exact (ih _ (left_next_peek hs₁ hs₂) h₂ rfl).map
      · exact h₁

theorem keeps_dropComments (n : Nat) : I.Keeps (dropComments n : Scan σ Nat) := by
  intro s h
  show (dropCommentsFrom n s).Ends I.holds I.allowed
  induction hleft : Source.left s using Nat.strongRecOn generalizing n s with
  | ind i ih =>
    subst hleft
    rw [dropCommentsFrom_eq]
    refine (keeps_passOver isBlank h).bind fun blanks s₁ hs₁ h₁ => ?_
    refine (keeps_peek h₁).bind fun c s₂ hs₂ h₂ => ?_
    split
    · next hc =>
      -- a comment, behind which the induction goes on
      subst hc
      refine (keeps_line h₂).bind fun l s₃ hs₃ h₃ => ?_
      exact ih _ (left_comment hs₁ hs₂ hs₃) _ h₃ rfl
    · exact h₂

variable (hquote : ∀ quote, quote = '"' ∨ quote = '\'' → I.allowed (.unclosed quote))
  (hrange : ∀ numeral, I.allowed (.outOfRange numeral))

include hquote hrange

theorem keeps_scalar : I.Keeps (scalar : Scan σ (Option Scalar)) := by
  refine keeps_peek.bind fun c => ?_
  cases c with
  | none => exact .pure none
  | some c =>
    dsimp only
    split
    · have hclosing : I.allowed (.unclosed (Delimiters.quoted '"').closing) := hquote _ (.inl rfl)
      exact (keeps_delimited hclosing).bind fun _ => .pure _
    split
    · have hclosing : I.allowed (.unclosed (Delimiters.doubling '\'').closing) :=
        hquote _ (.inr rfl)
      exact (keeps_delimited hclosing).bind fun _ => .pure _
    split
    · exact keeps_boolean.bind fun _ => .pure _
    split
    · exact (keeps_signed hrange).bind fun _ => .pure _
    · exact .pure none

theorem keeps_assignment (n : Nat) (key : Text) : I.Keeps (assignment n key : Scan σ Item) := by
  refine (keeps_passOver _).bind fun _ => (keeps_exactly _).bind fun present => ?_
  split
  · refine (keeps_passOver _).bind fun _ => (keeps_scalar hquote hrange).bind fun value => ?_
    refine keeps_line.bind fun rest => ?_
    cases value <;> exact .pure _
  · exact keeps_line.bind fun _ => .pure _

theorem keeps_statement (n : Nat) : I.Keeps (statement n : Scan σ (Nat × Option Item)) := by
  refine (keeps_dropComments n).bind fun m => (keeps_nonemptySpan _).bind fun key => ?_
  cases key with
  | none => exact .pure _
  | some key => exact (keeps_assignment hquote hrange m key).bind fun _ => .pure _

/-- A document that is read to its end is left where the last statement was looked for and not found;
the induction goes from one statement to the next. -/
theorem ends_items (n : Nat) ⦃s : σ⦄ (h : I.holds s) :
    (items n s).ending.Ends
      (fun s' => ∃ k m s₁, I.holds s₁ ∧ (statement k).run s₁ = .ok (m, none) s') I.allowed := by
  have hkeeps (n : Nat) : I.Keeps (statement n : Scan σ (Nat × Option Item)) :=
    keeps_statement hquote hrange n
  fun_induction items n s with
  | case1 n s m item s' hs rest ih =>
    -- the next statement is looked for in a state that has the property again
    exact ih ((hkeeps n).holds_of_ok h hs)
  | case2 n s m s' hs => exact ⟨n, m, s, h, hs⟩
  | case3 n s e s' hs => exact (hkeeps n).allowed_of_error h hs

end Invariant

namespace Settings

/-! ## Items and characters -/

/-- Every item has a key, so a document has no more items than characters. -/
theorem length_items_le (n : Nat) (s : σ) : (items n s).items.length ≤ Source.left s := by
  fun_induction items n s with
  | case1 n s m item s' hs rest ih => exact Nat.lt_of_le_of_lt ih (left_statement hs)
  | case2 => exact Nat.zero_le _
  | case3 => exact Nat.zero_le _

/-! ## Actions and characters -/

/-- Each character that is passed over keeps its credit, but for the two actions of the look and the
one of the read. The look at what is left is not paid for. -/
theorem spends_passOver (p : Char → Bool) :
    Scan.Spends 2 (passOver p : Scan (Logged σ) Text) fun t => 23 * t.length := by
  intro l
  show (passOverFrom p l).Spends (l.potential + 2) _
  induction hleft : Source.left l using Nat.strongRecOn generalizing l with
  | ind i ih =>
    subst hleft
    rw [passOverFrom_eq]
    refine (spends_peek l).bind (Nat.le_refl _) fun c l₁ hl₁ hle₁ => ?_
    cases c with
    | none => exact hle₁
    | some c =>
      dsimp only
      split
      · -- the read does not fail, and it gains more than the next look costs
        obtain ⟨l₂, hnext, hgain⟩ := gains_next_peek hl₁
        rw [hnext, Outcome.bind_ok]
        have hrest := ih _ (left_next_peek hl₁ hnext) l₂ rfl
        refine (hrest.mono (by omega) fun t => ?_).map
        simp only [Option.toList_some, List.length_append, List.length_singleton]
        omega
      · exact hle₁

/-- A comment pays for looking for the next one. -/
theorem spends_dropComments (n : Nat) : Scan.Spends 4 (dropComments n : Scan (Logged σ) Nat) := by
  intro l
  show (dropCommentsFrom n l).Spends (l.potential + 4)
  induction hleft : Source.left l using Nat.strongRecOn generalizing n l with
  | ind i ih =>
    subst hleft
    rw [dropCommentsFrom_eq]
    refine (spends_passOver isBlank l).bind (by omega) fun blanks l₁ hl₁ hle₁ => ?_
    refine (spends_peek l₁).bind (by omega) fun c l₂ hl₂ hle₂ => ?_
    split
    · next hc =>
      -- the sign of a comment gains enough for the looks before it and for its line
      subst hc
      have hline : (line.run l₂).Spends l.potential := spends_line_peek hl₂ (by omega)
      refine hline.bind (by omega) fun t l₃ hl₃ hle₃ => ?_
      have hrest := ih _ (left_comment hl₁ hl₂ hl₃) (n + blanks.count '\n' + 1) l₃ rfl
      exact hrest.mono (by omega) fun _ => by omega
    · show l₂.potential + 0 ≤ l.potential + 4
      omega

theorem spends_scalar : Scan.Spends 11 (scalar : Scan (Logged σ) (Option Scalar)) := by
  show Scan.Spends (2 + 9) _
  refine spends_peek.bind fun c => ?_
  cases c with
  | none => exact .pure none
  | some c =>
    dsimp only
    split
    · exact (spends_delimited _).answer.mono (by decide)
    split
    · exact (spends_delimited _).answer.mono (by decide)
    split
    · exact spends_boolean.answer
    split
    · exact spends_signed.answer.mono (by decide)
    · exact .pure none

theorem spends_assignment (n : Nat) (key : Text) :
    Scan.Spends 19 (assignment n key : Scan (Logged σ) Item) := by
  have hpass : Scan.Spends 2 (passOver isInline : Scan (Logged σ) Text) := (spends_passOver _).forget
  have hequals : Scan.Spends 3 (exactly ['='] : Scan (Logged σ) Bool) := spends_exactly ['=']
  -- blanks, the equals sign, and what stands behind it
  show Scan.Spends (2 + (3 + 14)) _
  refine hpass.bind fun _ => hequals.bind fun present => ?_
  split
  · show Scan.Spends (2 + (11 + (1 + 0))) _
    refine hpass.bind fun _ => spends_scalar.bind fun value => spends_line.bind fun rest => ?_
    cases value <;> exact .pure _
  · exact spends_line.answer.mono (by decide)

/-- A statement is paid for by its key, and so is looking for it. Looking in vain is not paid for. -/
theorem spends_statement (n : Nat) :
    Scan.Spends 6 (statement n : Scan (Logged σ) (Nat × Option Item)) fun a =>
      6 * a.2.toList.length := by
  show Scan.Spends (4 + 2) _ _
  refine (spends_dropComments n).bind fun m => ?_
  show Scan.Spends (2 + 0) _ _
  refine (spends_nonemptySpan _).bind fun key => ?_
  cases key with
  | none => exact .pure_of_le (Nat.le_refl 0)
  | some key =>
    -- one character pays for the assignment, and for looking before it
    show Scan.Spends (19 + 6) _ _
    exact (spends_assignment m key).bind fun item => .pure_of_le (Nat.le_refl 6)

/-- The number of actions is linear in what is to be read: the characters pay for all statements, and
only the last look for one is not paid for. -/
theorem spends_items (n : Nat) (l : Logged σ) : (items n l).ending.Spends (l.potential + 6) := by
  fun_induction items n l with
  | case1 n l m item l' hs rest ih =>
    have hstatement := (spends_statement n).of_run hs
    have hpaid : l'.potential + 6 ≤ l.potential + 6 := hstatement
    exact ih.mono hpaid fun _ => by omega
  | case2 n l m l' hs => exact (spends_statement n).of_run hs
  | case3 n l e l' hs => exact (spends_statement n).of_run hs

/-! ## Reading with a log -/

section Logs

variable {τ : Type} [Source τ] [Unbuffered τ]

/-- Reading from a larger buffer with a log is reading from one that has room for five characters, which
is enough. -/
theorem agree_logged {m k : Nat} {b : Buffered τ} (n : Nat) (hm : 5 ≤ m) (hk : m ≤ k)
    (hb : b.Within m) :
    let logged := items n (⟨b.withCapacity k, []⟩ : Logged (Buffered τ))
    (items n b).items = logged.items ∧
      Outcome.Agree (fun _ => False) (LoggedWithin m k) (fun _ => LoggedWithin m k)
        (items n b).ending logged.ending := by
  intro logged
  have hfits := fits_items n hm hb
  have hstart : (Simulation.logging hk).rel [] b ⟨b.withCapacity k, []⟩ := ⟨hb, rfl, by simp⟩
  obtain ⟨hitems, hending⟩ :=
    Simulation.agree_items n hstart fun _ _ he => hfits.not_isOverfull he
  exact ⟨hitems, hending.mono fun _ _ _ ⟨_, h⟩ => h⟩

/-- The log does not change what is read, and it shows that at no point more than five characters are
pending. -/
theorem read_logged (source : τ) :
    let logged := items 1 (⟨start source, []⟩ : Logged (Buffered τ))
    logged.items = (read source).items ∧
      logged.ending.mapState Logged.stream = (read source).ending ∧
      ∀ b ∈ logged.ending.state.visited, b.pending.length ≤ 5 := by
  intro logged
  -- with its own capacity the buffer in the log is the buffer itself
  have hwithin : (start source).Within 8192 := ⟨rfl, Nat.zero_le _⟩
  obtain ⟨hitems, hagree⟩ := agree_logged 1 (by decide) (Nat.le_refl _) hwithin
  have hview (b : Buffered τ) (l : Logged (Buffered τ)) (h : b.LoggedWithin 8192 8192 l) :
      l.stream = b := h.stream_eq.trans h.within.withCapacity_eq
  have hending := hagree.mapState_eq (fun _ => hview) hview
  -- with a smaller one it cannot overflow, and the log is the same
  have hsmall : ((start source).withCapacity 5).Within 5 := ⟨rfl, Nat.zero_le _⟩
  obtain ⟨-, hsmall⟩ := agree_logged 1 (Nat.le_refl _) (by decide : 5 ≤ 8192) hsmall
  refine ⟨hitems.symm, hending, ?_⟩
  exact hsmall.state (fun _ l => ∀ b ∈ l.visited, b.pending.length ≤ 5)
    (fun _ _ _ h => h.pending_le) fun _ _ h => h.pending_le

/-- Each of three blanks is read, handed back and read again, and behind them three reads find the end.
The last state comes first. -/
example :
    let logged := items 1 (⟨start ⟨[' ', ' ', ' ']⟩, []⟩ : Logged (Buffered Passage))
    logged.ending.state.visited.map (·.pending.length) = [0, 0, 0, 0, 1, 0, 0, 1, 0, 0, 1, 0] := by
  decide +kernel

end Logs

end Settings

end Rescan
