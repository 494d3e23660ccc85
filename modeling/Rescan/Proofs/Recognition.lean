import Rescan.Proofs.Simulation
import Rescan.Token.Delimited
import Rescan.Token.Exact
import Rescan.Token.Line
import Rescan.Token.Numeral

/-!
# Recognizers keep to their window

Every recognizer hands back only the end of what it has read, so it is tracked by every simulation.
The exception is the one that leaves out blank lines: it hands a line back with a line feed that may
never have been there, and is tracked by the loose simulations.

What a recognizer leaves in its window is what it has consumed. A token that is absent leaves nothing
there: everything that was read for it has been handed back.

## Main statements

* `Simulation.tracks_nonemptySpan`, `tracks_line`, `tracks_exactly`, `tracks_boolean`,
  `tracks_unsigned`, `tracks_signed`, `tracks_delimited`: one statement for each recognizer.
* `Simulation.Loose.tracks_dropBlankLines`: the exception.
-/

namespace Rescan

open CharStream Outcome

namespace Simulation

variable {σ τ α : Type} [CharStream σ] [CharStream τ] {S : Simulation σ τ} {w : Text} {s : σ} {t : τ}

/-! ## Spans -/

/-- A loop of reads: the induction is on what is left of the first stream, which every character
lowers, and the window grows by what the loop has collected. -/
theorem agree_spanFrom (p : Char → Bool) (h : S.rel w s t) :
    Agree S.excused S.failed (fun u s' t' => S.rel (w ++ u) s' t')
      (spanFrom p s) (spanFrom p t) := by
  induction hn : Source.left s using Nat.strongRecOn generalizing w s t with
  | ind n ih =>
    subst hn
    rw [spanFrom_eq, spanFrom_eq]
    apply (S.next h).bind
    rintro c s' t' hc ⟨hr, -⟩
    cases c with
    | none => exact .ok hr
    | some c =>
      by_cases hp : p c
      · -- the character belongs to the span
        simp only [hp, if_true]
        apply (ih _ (Source.left_some hc) hr rfl).map
        intro u s'' t'' hu
        rwa [List.append_assoc] at hu
      · -- the character ends the span and is handed back
        simp only [hp]
        apply (S.putBack hr).map
        intro _ s'' t'' hu
        rwa [List.append_nil]

theorem tracks_span (p : Char → Bool) :
    S.Tracks [] (fun u v => v = u) (span p : Scan σ Text) (span p : Scan τ Text) := by
  intro w s t h
  rw [List.append_nil] at h
  exact (agree_spanFrom p h).mono fun u s' t' hu => ⟨u, rfl, hu⟩

theorem tracks_nonemptySpan (p : Char → Bool) :
    S.Tracks [] (fun u v => v = u.getD [])
      (nonemptySpan p : Scan σ (Option Text)) (nonemptySpan p : Scan τ (Option Text)) := by
  apply (tracks_span p).bind
  rintro _ u rfl
  apply Tracks.pure
  cases u <;> rfl

/-- A span that is absent has consumed nothing. -/
theorem tracks_nonemptySpan_absent (p : Char → Bool) :
    S.Tracks [] (fun a v => a = none → v = [])
      (nonemptySpan p : Scan σ (Option Text)) (nonemptySpan p : Scan τ (Option Text)) := by
  apply (tracks_nonemptySpan p).mono
  rintro _ _ rfl rfl
  rfl

theorem tracks_dropBlanks :
    S.Tracks [] (fun _ _ => True) (dropBlanks : Scan σ Unit) (dropBlanks : Scan τ Unit) :=
  (tracks_span isBlank).bind fun _ _ _ => .pure trivial

/-! ## Fixed texts and truth values -/

/-- What was read for a text is what the answer shows; the induction is on the text. -/
theorem tracks_follow (t : Text) :
    S.Tracks [] (fun seen v => v = seen) (follow t : Scan σ Text) (follow t : Scan τ Text) := by
  induction t with
  | nil => exact .pure rfl
  | cons expected rest ih =>
    apply Tracks.next.bind
    rintro c _ rfl
    cases c with
    | none => exact .pure rfl
    | some c =>
      by_cases hc : c = expected
      · -- the rest of the text is followed with this character in front of its window
        simp only [hc, if_true]
        apply (ih.after [expected]).bind
        rintro seen _ ⟨_, rfl, rfl⟩
        exact .pure rfl
      · -- the character that disagrees is the last one read
        simp only [hc, if_false]
        exact .pure rfl

theorem tracks_exactly (t : Text) :
    S.Tracks [] (fun found v => v = if found then t else [])
      (exactly t : Scan σ Bool) (exactly t : Scan τ Bool) := by
  apply (tracks_follow t).bind
  rintro _ seen rfl
  by_cases ht : seen = t
  · simp only [ht, if_true]
    exact .pure rfl
  · -- everything that was read is handed back at once
    simp only [ht, if_false]
    apply (Tracks.putBack (v := []) seen).bind
    rintro _ _ rfl
    exact .pure rfl

theorem tracks_truth (b : Bool) :
    S.Tracks [] (fun a v => a = none → v = [])
      (truth b : Scan σ (Option Bool)) (truth b : Scan τ (Option Bool)) := by
  apply (tracks_exactly (truthName b)).bind
  rintro found _ rfl
  apply Tracks.pure
  cases found <;> simp

theorem tracks_boolean :
    S.Tracks [] (fun a v => a = none → v = [])
      (boolean : Scan σ (Option Bool)) (boolean : Scan τ (Option Bool)) := by
  apply Tracks.peek.bind
  rintro c _ rfl
  -- the look-ahead is back, so either name starts with an empty window
  split
  · exact tracks_truth true
  · exact tracks_truth false
  · exact .pure fun _ => rfl

/-! ## Numbers -/

theorem tracks_unsigned :
    S.Tracks [] (fun a v => a = none → v = [])
      (unsigned : Scan σ (Option Nat)) (unsigned : Scan τ (Option Nat)) := by
  apply (tracks_nonemptySpan Char.isDigit).bind
  rintro ds _ rfl
  cases ds with
  | none => exact .pure fun _ => rfl
  | some ds =>
    dsimp only
    cases magnitude ds with
    | some n => exact .pure (by simp)
    | none => exact .fail _

theorem tracks_inRange (negative : Bool) (ds v : Text) :
    S.Tracks v (fun _ _ => True)
      (inRange negative ds : Scan σ Int) (inRange negative ds : Scan τ Int) := by
  unfold inRange
  cases (magnitude ds).bind (withSign negative) with
  | some n => exact .pure trivial
  | none => exact .fail _

theorem tracks_signed :
    S.Tracks [] (fun a v => a = none → v = [])
      (signed : Scan σ (Option Int)) (signed : Scan τ (Option Int)) := by
  apply Tracks.peek.bind
  rintro c _ rfl
  cases c with
  | none => exact .pure fun _ => rfl
  | some c =>
    by_cases hs : c = '+' ∨ c = '-'
    · simp only [hs, if_true]
      apply Tracks.next.bind
      rintro sign _ rfl
      -- the sign stays in front of the window of the digits
      have hds := (tracks_nonemptySpan (S := S) Char.isDigit).after sign.toList
      rw [List.append_nil] at hds
      apply hds.bind
      rintro ds _ ⟨_, rfl, rfl⟩
      cases ds with
      | none =>
        -- without digits the window is the sign, which is handed back
        rw [Option.getD_none, List.append_nil]
        apply (Tracks.handBack (v := []) sign).bind
        rintro _ _ rfl
        exact .pure fun _ => rfl
      | some ds => exact (tracks_inRange _ _ _).bind fun _ _ _ => .pure (by simp)
    · by_cases hd : c.isDigit
      · simp only [hs, hd, if_true, if_false]
        apply (tracks_nonemptySpan Char.isDigit).bind
        rintro ds _ rfl
        cases ds with
        | none => exact .pure fun _ => rfl
        | some ds => exact (tracks_inRange _ _ _).bind fun _ _ _ => .pure (by simp)
      · simp only [hs, hd, if_false]
        exact .pure fun _ => rfl

/-! ## Delimited literals -/

/-- The content and its closing delimiter are consumed. A look-ahead at a second delimiter leaves
the window as it was, so the induction goes on from either case with the same window. -/
theorem agree_contentFrom (d : Delimiters) (before : Option Char) (h : S.rel w s t) :
    Agree S.excused S.failed (fun u s' t' => S.rel (w ++ u ++ [d.closing]) s' t')
      (contentFrom d before s) (contentFrom d before t) := by
  induction hn : Source.left s using Nat.strongRecOn generalizing w s t before with
  | ind n ih =>
    subst hn
    rw [contentFrom_eq, contentFrom_eq]
    apply (S.next h).bind
    rintro c s₁ t₁ hc ⟨hr, -⟩
    cases c with
    | none => exact .error (S.fail hr)
    | some c =>
      have hlt := Source.left_some hc
      -- any character that does not end the literal is followed by the rest of the content
      have hgo : ∀ {s₂ t₂}, Source.left s₂ < Source.left s → S.rel (w ++ [c]) s₂ t₂ →
          Agree S.excused S.failed (fun u s' t' => S.rel (w ++ u ++ [d.closing]) s' t')
            ((contentFrom d (some c) s₂).map (c :: ·)) ((contentFrom d (some c) t₂).map (c :: ·)) := by
        intro s₂ t₂ hlt₂ hr₂
        apply (ih _ hlt₂ (some c) hr₂ rfl).map
        intro u s' t' hu
        rwa [List.append_assoc w] at hu
      dsimp only
      by_cases hclose : c = d.closing ∧ ¬ d.escapedBy before
      · rw [if_pos hclose, if_pos hclose]
        obtain ⟨rfl, -⟩ := hclose
        by_cases hd : d.isDoubling
        · -- whether the literal ends here is seen one character ahead
          simp only [hd, if_true]
          have hpeek := Tracks.peek (S := S) (v := []) (w := w ++ [d.closing]) (s := s₁) (t := t₁)
            (by rwa [List.append_nil])
          apply hpeek.bind
          rintro ahead s₂ t₂ ha ⟨_, rfl, hr₂⟩
          rw [List.append_nil] at hr₂
          by_cases ha' : ahead = some d.closing
          · simp only [ha', if_true]
            exact hgo (Nat.lt_of_le_of_lt (steady_peek ha) hlt) hr₂
          · simp only [ha', if_false]
            exact .ok (by rwa [List.append_nil])
        · simp only [hd]
          exact .ok (by rwa [List.append_nil])
      · rw [if_neg hclose, if_neg hclose]
        exact hgo hlt hr

theorem tracks_delimited (d : Delimiters) :
    S.Tracks [] (fun a v => a = none → d.restore = true → v = [])
      (delimited d : Scan σ (Option Text)) (delimited d : Scan τ (Option Text)) := by
  apply Tracks.next.bind
  rintro opening _ rfl
  by_cases ho : opening = some d.opening
  · -- the content is no action of its own, so its agreement is used below the rules
    simp only [ho, if_true]
    intro w s t h
    rw [Scan.run_bind, Scan.run_bind]
    apply (agree_contentFrom d none h).bind
    intro u s' t' _ hu
    refine .ok ⟨d.opening :: u ++ [d.closing], by simp, ?_⟩
    simpa using hu
  · simp only [ho, if_false]
    by_cases hr : d.restore
    · -- an end in place of the opening is handed back as nothing
      simp only [hr, if_true]
      apply (Tracks.handBack (v := []) opening).bind
      rintro _ _ rfl
      exact .pure fun _ _ => rfl
    · rw [if_neg hr, if_neg hr]
      exact .pure fun _ hr' => absurd hr' hr

/-! ## Lines -/

/-- A line has consumed its text and the character that ends it, unless it ended at an end. -/
theorem agree_lineFrom (h : S.rel w s t) :
    Agree S.excused S.failed
      (fun u s' t' => (∃ c, S.rel (w ++ u ++ [c]) s' t') ∨ (S.rel (w ++ u) s' t' ∧ S.ended s' t'))
      (lineFrom s) (lineFrom t) := by
  induction hn : Source.left s using Nat.strongRecOn generalizing w s t with
  | ind n ih =>
    subst hn
    rw [lineFrom_eq, lineFrom_eq]
    apply (S.next h).bind
    rintro c s' t' hc ⟨hr, hend⟩
    cases c with
    | none => exact .ok (.inr ⟨hr, hend rfl⟩)
    | some c =>
      by_cases he : endsLine c
      · -- the character that ends the line is not of its text
        simp only [he, if_true]
        exact .ok (.inl ⟨c, by rwa [List.append_nil]⟩)
      · simp only [he]
        apply (ih _ (Source.left_some hc) hr rfl).map
        intro u s'' t'' hu
        rwa [List.append_assoc w] at hu

/-- The same of a line that may be absent, which consumes nothing. -/
theorem agree_line (h : S.rel w s t) :
    Agree S.excused S.failed
      (fun a s' t' => match a with
        | none => S.rel w s' t'
        | some u => (∃ c, S.rel (w ++ u ++ [c]) s' t') ∨ (S.rel (w ++ u) s' t' ∧ S.ended s' t'))
      (line.run s) (line.run t) := by
  unfold line
  rw [Scan.run_bind, Scan.run_bind]
  apply (S.next h).bind
  rintro c s₁ t₁ - ⟨hr, -⟩
  cases c with
  | none =>
    rw [Option.toList_none, List.append_nil] at hr
    exact .ok hr
  | some c =>
    by_cases he : endsLine c
    · simp only [he, if_true]
      exact .ok (.inl ⟨c, by rwa [List.append_nil]⟩)
    · simp only [he, Bool.false_eq_true, if_false, Scan.run_bind]
      apply (agree_lineFrom hr).bind
      intro u s₂ t₂ _ hu
      rw [Option.toList_some, List.append_assoc w] at hu
      exact .ok hu

theorem tracks_line :
    S.Tracks [] (fun a v => a = none → v = [])
      (line : Scan σ (Option Text)) (line : Scan τ (Option Text)) := by
  intro w s t h
  rw [List.append_nil] at h
  apply (agree_line h).mono
  intro a s' t' ha
  cases a with
  | none => exact ⟨[], fun _ => rfl, by rwa [List.append_nil]⟩
  | some u =>
    -- the window is the text of the line, with its last character if there was one
    rcases ha with ⟨c, hr⟩ | ⟨hr, -⟩
    · exact ⟨u ++ [c], by simp, by rwa [← List.append_assoc]⟩
    · exact ⟨u, by simp, hr⟩

/-! ## Blank lines -/

/-- The line that is handed back is as long as what was read for it, or was ended by an end of
input. Either is enough for a loose simulation. -/
theorem Loose.agree_dropBlankLinesFrom (hS : S.Loose) (h : S.rel w s t) :
    Agree S.excused S.failed (fun _ s' t' => S.rel w s' t')
      (dropBlankLinesFrom s) (dropBlankLinesFrom t) := by
  induction hn : Source.left s using Nat.strongRecOn generalizing s t with
  | ind n ih =>
    subst hn
    rw [dropBlankLinesFrom_eq, dropBlankLinesFrom_eq]
    apply (agree_line h).bind
    intro a s' t' ha hr
    cases a with
    | none => exact .ok hr
    | some u =>
      -- the window that the line feed would have left, whatever ended the line
      have hu : S.rel (w ++ (u ++ ['\n'])) s' t' := by
        rcases hr with ⟨c, hr⟩ | ⟨hr, hend⟩
        · exact hS.exchange (by simp) hr
        · exact hS.ended hend hr
      by_cases hb : u.isBlank
      · simp only [hb, if_true]
        exact ih _ (left_line ha) (hS.exchange (by simp) hu) rfl
      · simp only [hb]
        exact S.putBack hu

theorem Loose.tracks_dropBlankLines (hS : S.Loose) :
    S.Tracks [] (fun _ v => v = [])
      (dropBlankLines : Scan σ Unit) (dropBlankLines : Scan τ Unit) := by
  intro w s t h
  exact (hS.agree_dropBlankLinesFrom h).mono fun _ s' t' hr => ⟨[], rfl, hr⟩

end Simulation

end Rescan
