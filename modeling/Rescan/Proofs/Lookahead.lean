import Rescan.Proofs.Answers
import Rescan.Source.Bytes
import Rescan.Source.Passage

/-!
# How far a token looks ahead

A source may be a terminal, or a reader that fails after a while. Then it matters what is asked of it:
to read a line must not mean to wait for the next one. A token that shows by itself where it ends is
read character by character, and nothing behind it is asked for. Behind any other token a recognizer
looks at one more character, and leaves it pending.

The looks that a recognizer takes before its token has ended do not count: the character that was
looked at is the next one that is read, and it waits in the buffer.

## Main definitions

* `Reads`: a text is read, character by character, and nothing else happens.
* `ReadsAhead`: a text is read, and then one character is looked at.

## Main statements

* `reads_line`, `reads_exactly`, `reads_contentFrom`: tokens that show where they end.
* `readsAhead_span`, `readsAhead_contentFrom`, `readsAhead_signed`: tokens that do not.
* `Reads.answers_eq`, `ReadsAhead.answers_le`: how often the source is asked.
* `lookahead_bounded`: the look-ahead of every recognizer.
-/

namespace Rescan

open CharStream Buffered

variable {σ : Type}

/-! ## Reading a text -/

/-- From the first state to the second a text is read, character by character. -/
inductive Reads [Source σ] : Text → σ → σ → Prop where
  | nil (s : σ) : Reads [] s s
  | cons {c : Char} {v : Text} {s s₁ s' : σ} (first : Source.next.run s = .ok (some c) s₁)
      (rest : Reads v s₁ s') : Reads (c :: v) s s'

theorem Reads.append [Source σ] {v w : Text} {s s₁ s' : σ} (h : Reads v s s₁)
    (h' : Reads w s₁ s') : Reads (v ++ w) s s' := by
  induction h with
  | nil => exact h'
  | cons first _ ih => exact .cons first (ih h')

section Recognizers

variable [CharStream σ] {s s₁ s' : σ} {v w t : Text} {c : Char}

/-- A text is read, and then the next character, or an end, is looked at. -/
def ReadsAhead (v : Text) (s s' : σ) : Prop :=
  ∃ s₁ ahead, Reads v s s₁ ∧ peek.run s₁ = .ok ahead s'

theorem ReadsAhead.cons (first : Source.next.run s = .ok (some c) s₁) (h : ReadsAhead v s₁ s') :
    ReadsAhead (c :: v) s s' := by
  obtain ⟨s₂, ahead, hv, hpeek⟩ := h
  exact ⟨s₂, ahead, .cons first hv, hpeek⟩

/-! ### Tokens that show where they end -/

/-- The rest of a line is read through the character that ends it, or up to an end of input. -/
theorem reads_lineFrom (h : lineFrom s = .ok t s') :
    (∃ e, endsLine e = true ∧ Reads (t ++ [e]) s s') ∨
      ∃ s₁, Reads t s s₁ ∧ Source.next.run s₁ = .ok none s' := by
  fun_induction lineFrom s generalizing t with
  | case1 s c s₁ h₁ hc =>
    -- the character that ends it
    cases h
    exact .inl ⟨c, hc, .cons h₁ (.nil _)⟩
  | case2 s c s₁ h₁ hc ih =>
    -- one character more of the line
    obtain ⟨u, hu, rfl⟩ := Outcome.map_eq_ok_iff.1 h
    rcases ih hu with ⟨e, he, hr⟩ | ⟨s₂, hr, hend⟩
    · exact .inl ⟨e, he, .cons h₁ hr⟩
    · exact .inr ⟨s₂, .cons h₁ hr, hend⟩
  | case3 s s₁ h₁ =>
    cases h
    exact .inr ⟨s, .nil s, h₁⟩
  | case4 => cases h

theorem reads_line (h : line.run s = .ok (some t) s') :
    (∃ e, endsLine e = true ∧ Reads (t ++ [e]) s s') ∨
      ∃ s₁, Reads t s s₁ ∧ Source.next.run s₁ = .ok none s' := by
  obtain ⟨c, s₁, h₁, h⟩ := Scan.run_bind_eq_ok_iff.1 h
  cases c with
  | none => cases h
  | some c =>
    by_cases hc : endsLine c
    · -- an empty line
      simp only [hc, if_true] at h
      cases h
      exact .inl ⟨c, hc, .cons h₁ (.nil _)⟩
    · simp only [hc] at h
      obtain ⟨u, h₂, ⟨⟩⟩ := Scan.run_bind_pure_eq_ok_iff.1 h
      rcases reads_lineFrom h₂ with ⟨e, he, hr⟩ | ⟨s₂, hr, hend⟩
      · exact .inl ⟨e, he, .cons h₁ hr⟩
      · exact .inr ⟨s₂, .cons h₁ hr, hend⟩

/-- A text that is there was read as far as it goes; the induction is on the text. -/
theorem reads_follow (h : (follow t).run s = .ok t s') : Reads t s s' := by
  induction t generalizing s with
  | nil =>
    cases h
    exact .nil _
  | cons expected rest ih =>
    obtain ⟨c, s₁, h₁, h⟩ := Scan.run_bind_eq_ok_iff.1 h
    cases c with
    | none => cases h
    | some c =>
      by_cases hc : c = expected
      · subst hc
        simp only [if_true] at h
        obtain ⟨u, h₂, ⟨⟩⟩ := Scan.run_bind_pure_eq_ok_iff.1 h
        exact .cons h₁ (ih h₂)
      · -- a character that disagrees would be the last of the text
        simp only [hc, if_false] at h
        cases h
        exact absurd rfl hc

theorem reads_exactly (h : (exactly t).run s = .ok true s') : Reads t s s' := by
  obtain ⟨seen, s₁, h₁, h⟩ := Scan.run_bind_eq_ok_iff.1 h
  by_cases ht : seen = t
  · subst ht
    simp only [if_true] at h
    cases h
    exact reads_follow h₁
  · -- otherwise the answer is no
    simp only [ht, if_false] at h
    obtain ⟨_, s₂, h₂, h⟩ := Scan.run_bind_eq_ok_iff.1 h
    cases h

theorem reads_truth {b b' : Bool} (h : (truth b).run s = .ok (some b') s') :
    Reads (truthName b) s s' := by
  obtain ⟨found, h₁, hfound⟩ := Scan.run_bind_pure_eq_ok_iff.1 h
  cases found with
  | false => cases hfound
  | true => exact reads_exactly h₁

/-- The content of a literal whose delimiter is not doubled. -/
theorem reads_contentFrom {d : Delimiters} {before : Option Char} (hd : d.isDoubling = false)
    (h : contentFrom d before s = .ok t s') : Reads (t ++ [d.closing]) s s' := by
  fun_induction contentFrom d before s generalizing t with
  | case1 => cases h
  | case2 => cases h
  | case3 before s c s₁ h₁ hc hd' => exact absurd (hd.symm.trans hd') (by decide)
  | case4 before s c s₁ h₁ hc hd' => exact absurd (hd.symm.trans hd') (by decide)
  | case5 before s c s₁ h₁ hc hd' => exact absurd (hd.symm.trans hd') (by decide)
  | case6 before s c s₁ h₁ hc =>
    -- the closing delimiter
    cases h
    obtain ⟨rfl, -⟩ := hc
    exact .cons h₁ (.nil _)
  | case7 before s c s₁ h₁ hc ih =>
    -- one character more of the content
    obtain ⟨u, hu, rfl⟩ := Outcome.map_eq_ok_iff.1 h
    exact .cons h₁ (ih hu)

/-! ### Spans -/

/-- The characters of a span are read, and the one that ends it is looked at. -/
theorem readsAhead_span {p : Char → Bool} (h : (span p).run s = .ok t s') : ReadsAhead t s s' := by
  change spanFrom p s = _ at h
  fun_induction spanFrom p s generalizing t with
  | case1 s c s₁ h₁ hp ih =>
    obtain ⟨u, hu, rfl⟩ := Outcome.map_eq_ok_iff.1 h
    exact (ih hu).cons h₁
  | case2 s c s₁ h₁ hp =>
    obtain ⟨_, hu, rfl⟩ := Outcome.map_eq_ok_iff.1 h
    exact ⟨s, some c, .nil s, peek_eq_ok_iff.2 ⟨s₁, h₁, hu⟩⟩
  | case3 s s₁ h₁ =>
    cases h
    exact ⟨s, none, .nil s, peek_eq_ok_iff.2 ⟨s', h₁, rfl⟩⟩
  | case4 => cases h

theorem readsAhead_nonemptySpan {p : Char → Bool} (h : (nonemptySpan p).run s = .ok (some t) s') :
    t ≠ [] ∧ ReadsAhead t s s' := by
  obtain ⟨u, h₁, hu⟩ := Scan.run_bind_pure_eq_ok_iff.1 h
  cases u with
  | nil => cases hu
  | cons c u =>
    cases hu
    exact ⟨List.cons_ne_nil c u, readsAhead_span h₁⟩

theorem readsAhead_unsigned {n : Nat} (h : unsigned.run s = .ok (some n) s') :
    ∃ v, ReadsAhead v s s' := by
  obtain ⟨ds, s₁, h₁, h⟩ := Scan.run_bind_eq_ok_iff.1 h
  cases ds with
  | none => cases h
  | some ds =>
    dsimp only at h
    split at h
    · cases h
      exact ⟨ds, (readsAhead_nonemptySpan h₁).2⟩
    · cases h

omit [CharStream σ] in
theorem inRange_eq_ok {negative : Bool} {ds : Text} {n : Int}
    (h : (inRange negative ds).run s = .ok n s') : s' = s := by
  unfold inRange at h
  split at h
  · cases h
    rfl
  · cases h

end Recognizers

/-! ## Looks that are followed by a read -/

section Buffered

variable [Source σ] {b b₁ b' : Buffered σ} {v t : Text} {c : Char}

/-- The character that was looked at is the next one that is read, and reading it leaves no trace of
the look. -/
theorem next_of_peek (h : peek.run b = .ok (some c) b') :
    ∃ b₁, Source.next.run b = .ok (some c) b₁ ∧ Source.next.run b' = .ok (some c) b₁ := by
  obtain ⟨b₁, h₁, h₂⟩ := peek_eq_ok_iff.1 h
  obtain ⟨-, rfl⟩ := putBack_eq_ok_iff.1 h₂
  refine ⟨b₁, h₁, ?_⟩
  -- the counter has counted the character, so it can count it again
  have hcount : b₁.offset - 1 + 1 = b₁.offset := by
    rcases next_eq_some h₁ with ⟨_, -, rfl⟩ | ⟨-, _, -, rfl⟩ <;> rfl
  show Outcome.ok (some c) { b₁ with offset := b₁.offset - 1 + 1 } = _
  rw [hcount]

/-- A look at the first character of a text that is then read can be left out. -/
theorem Reads.of_peek (h : peek.run b = .ok (some c) b') (hv : Reads v b' b₁) (hne : v ≠ []) :
    Reads v b b₁ := by
  obtain ⟨b₂, hb, hb'⟩ := next_of_peek h
  cases hv with
  | nil => exact absurd rfl hne
  | cons first rest =>
    obtain ⟨⟨rfl⟩, rfl⟩ := Outcome.ok.inj (hb'.symm.trans first)
    exact .cons hb rest

theorem ReadsAhead.of_peek (h : peek.run b = .ok (some c) b') (hv : ReadsAhead v b' b₁)
    (hne : v ≠ []) : ReadsAhead v b b₁ := by
  obtain ⟨b₂, ahead, hr, hpeek⟩ := hv
  exact ⟨b₂, ahead, hr.of_peek h hne, hpeek⟩

/-- The content of a literal whose delimiter is doubled. A look at a second delimiter is a look at a
character of the content; only the last one is a look behind the literal. -/
theorem readsAhead_contentFrom {d : Delimiters} {before : Option Char} (hd : d.isDoubling = true)
    (h : contentFrom d before b = .ok t b') : ReadsAhead (t ++ [d.closing]) b b' := by
  fun_induction contentFrom d before b generalizing t with
  | case1 => cases h
  | case2 => cases h
  | case3 before b c b₁ h₁ hc hd' b₂ h₂ ih =>
    -- a doubled delimiter
    obtain ⟨u, hu, rfl⟩ := Outcome.map_eq_ok_iff.1 h
    exact ((ih hu).of_peek h₂ (by simp)).cons h₁
  | case4 before b c b₁ h₁ hc hd' ahead b₂ h₂ ha =>
    -- a delimiter that stands alone
    cases h
    obtain ⟨rfl, -⟩ := hc
    exact ⟨b₁, ahead, .cons h₁ (.nil _), h₂⟩
  | case5 => cases h
  | case6 before b c b₁ h₁ hc hd' => exact absurd hd hd'
  | case7 before b c b₁ h₁ hc ih =>
    obtain ⟨u, hu, rfl⟩ := Outcome.map_eq_ok_iff.1 h
    exact (ih hu).cons h₁

/-- A truth value is read without a look behind it, since its first character, which was looked at,
is the first that is read. -/
theorem reads_boolean {v : Bool} (h : boolean.run b = .ok (some v) b') : ∃ w, Reads w b b' := by
  obtain ⟨c, b₁, h₁, h⟩ := Scan.run_bind_eq_ok_iff.1 h
  split at h
  · exact ⟨_, (reads_truth h).of_peek h₁ (by decide)⟩
  · exact ⟨_, (reads_truth h).of_peek h₁ (by decide)⟩
  · cases h

theorem readsAhead_signed {n : Int} (h : signed.run b = .ok (some n) b') :
    ∃ v, ReadsAhead v b b' := by
  obtain ⟨c, b₁, h₁, h⟩ := Scan.run_bind_eq_ok_iff.1 h
  cases c with
  | none => cases h
  | some c =>
    dsimp only at h
    split at h
    · -- a sign, which is the character that was looked at
      obtain ⟨sign, b₂, h₂, h⟩ := Scan.run_bind_eq_ok_iff.1 h
      obtain ⟨ds, b₃, h₃, h⟩ := Scan.run_bind_eq_ok_iff.1 h
      cases ds with
      | none =>
        obtain ⟨_, b₄, h₄, h⟩ := Scan.run_bind_eq_ok_iff.1 h
        cases h
      | some ds =>
        obtain ⟨_, b₄, h₄, h⟩ := Scan.run_bind_eq_ok_iff.1 h
        cases h
        obtain rfl := inRange_eq_ok h₄
        obtain ⟨b₅, hb, hb₁⟩ := next_of_peek h₁
        obtain ⟨rfl, rfl⟩ := Outcome.ok.inj (hb₁.symm.trans h₂)
        exact ⟨c :: ds, (readsAhead_nonemptySpan h₃).2.cons hb⟩
    · split at h
      · obtain ⟨ds, b₂, h₂, h⟩ := Scan.run_bind_eq_ok_iff.1 h
        cases ds with
        | none => cases h
        | some ds =>
          obtain ⟨_, b₃, h₃, h⟩ := Scan.run_bind_eq_ok_iff.1 h
          cases h
          obtain rfl := inRange_eq_ok h₃
          obtain ⟨hne, hds⟩ := readsAhead_nonemptySpan h₂
          exact ⟨ds, hds.of_peek h₁ hne⟩
      · cases h

end Buffered

/-! ## How often the source is asked -/

section Asked

variable [Source σ] {v w : Text} {b₀ b b' : Buffered (Asked σ)}

/-- What is read is consumed. -/
theorem Reads.consumes (h : Reads v b b') (h₀ : Consumes w b₀ b) : Consumes (w ++ v) b₀ b' := by
  induction h generalizing w with
  | nil => rwa [List.append_nil]
  | @cons c v b b₁ b' first _ ih => simpa using ih (h₀.next first)

/-- What is only looked at is not. -/
theorem ReadsAhead.consumes (h : ReadsAhead v b b') : Consumes v b b' := by
  obtain ⟨b₁, c, hv, hpeek⟩ := h
  have hread : Consumes v b b₁ := hv.consumes (.refl b)
  obtain ⟨b₂, h₂, h₃⟩ := peek_eq_ok_iff.1 hpeek
  have hnext := hread.next h₂
  cases c with
  | none =>
    cases h₃
    simpa using hnext
  | some c => exact hnext.putBack h₃

/-- Reading a text asks for the characters of it that were not pending, and for nothing else. -/
theorem Reads.answers_eq (h : Reads v b b') :
    b'.pending = b.pending.drop v.length ∧
      b'.source.answers = b.source.answers ++
        (v.drop b.pending.length).map fun c => .ok (some c) := by
  induction h with
  | nil => simp
  | @cons c v b b₁ b' first _ ih =>
    obtain ⟨hp', ha'⟩ := ih
    rcases next_eq_some first with ⟨t, hp, rfl⟩ | ⟨hp, source, hs, rfl⟩
    · rw [hp', ha', hp]
      simp
    · obtain ⟨-, ha⟩ := Asked.next_eq_ok hs
      dsimp only at hp' ha'
      rw [hp', ha', ha, hp]
      simp

/-- A look asks the source at most once, and only if nothing is pending. -/
theorem peek_answers {c : Option Char} (h : peek.run b = .ok c b') :
    ∃ answers, b'.source.answers = b.source.answers ++ answers ∧
      answers.length ≤ 1 - b.pending.length ∧ b'.pending.length ≤ max b.pending.length 1 := by
  obtain ⟨b₁, h₁, h₂⟩ := peek_eq_ok_iff.1 h
  cases c with
  | none =>
    cases h₂
    obtain ⟨hp, source, hs, rfl⟩ := next_eq_none h₁
    exact ⟨_, (Asked.next_eq_ok hs).2, by simp [hp], by simp [hp]⟩
  | some c =>
    obtain ⟨-, rfl⟩ := putBack_eq_ok_iff.1 h₂
    rcases next_eq_some h₁ with ⟨t, hp, rfl⟩ | ⟨hp, source, hs, rfl⟩
    · exact ⟨[], by simp, by simp, by simp [hp]⟩
    · exact ⟨_, (Asked.next_eq_ok hs).2, by simp [hp], by simp [hp]⟩

theorem ReadsAhead.answers_le (h : ReadsAhead v b b') :
    ∃ answers, b'.source.answers = b.source.answers ++ answers ∧
      answers.length ≤ v.length + 1 - b.pending.length ∧
      b'.pending.length ≤ max (b.pending.length - v.length) 1 := by
  obtain ⟨b₁, c, hv, hpeek⟩ := h
  obtain ⟨hp, ha⟩ := hv.answers_eq
  obtain ⟨answers, ha', hlen, hp'⟩ := peek_answers hpeek
  rw [hp, List.length_drop] at hlen hp'
  refine ⟨_, by rw [ha', ha, List.append_assoc], ?_, hp'⟩
  simp only [List.length_append, List.length_map, List.length_drop]
  omega

/-- A token that was read with no look behind it does not ask for more than one with a look. -/
theorem Reads.answers_le (h : Reads v b b') :
    ∃ answers, b'.source.answers = b.source.answers ++ answers ∧
      answers.length ≤ v.length + 1 - b.pending.length ∧
      b'.pending.length ≤ max (b.pending.length - v.length) 1 := by
  obtain ⟨hp, ha⟩ := h.answers_eq
  refine ⟨_, ha, ?_, ?_⟩
  · rw [List.length_map, List.length_drop]
    omega
  · rw [hp, List.length_drop]
    omega

end Asked

/-! ## Requests -/

/-- The reply to a request is a token that shows where it ends, and the text `v` was consumed
for it. -/
inductive Request.Closes : Request → Text → Reply → Prop where
  /-- A line that was ended by a character. -/
  | line {t : Text} {e : Char} (he : endsLine e = true) : Closes .line (t ++ [e]) (.text (some t))
  /-- A literal whose delimiter is not doubled. -/
  | delimited {d : Delimiters} {v t : Text} (hd : d.isDoubling = false) :
      Closes (.delimited d) v (.text (some t))
  /-- A fixed text. -/
  | exactly {t v : Text} : Closes (.exactly t) v (.truth (some true))

/-- The reply to a request is a token that may go on behind every character. -/
inductive Request.LooksAhead : Request → Reply → Prop where
  | digits {t : Text} : LooksAhead .digits (.text (some t))
  | unsigned {n : Int} : LooksAhead .unsigned (.number (some n))
  | signed {n : Int} : LooksAhead .signed (.number (some n))
  | word {t : Text} : LooksAhead .word (.text (some t))
  | boolean {v : Bool} : LooksAhead .boolean (.truth (some v))
  /-- A literal whose delimiter is doubled. -/
  | delimited {d : Delimiters} {t : Text} (hd : d.isDoubling = true) :
      LooksAhead (.delimited d) (.text (some t))
  | dropBlanks : LooksAhead .dropBlanks .done

section Requests

variable [Source σ] {v : Text} {r : Request} {reply : Reply}

/-- A token that shows where it ends is read, and nothing else is done. -/
theorem Request.Closes.reads {b b' : Buffered (Asked σ)} (hr : r.Closes v reply)
    (h : r.perform.run b = .ok reply b') (hv : Consumes v b b') : Reads v b b' := by
  -- what was read is what was consumed, since only one text can have been
  have hread {w : Text} (hw : Reads w b b') : Reads v b b' := by
    have hwv : w = v := (hw.consumes (.refl b)).unique hv
    exact hwv ▸ hw
  cases hr with
  | @line t e he =>
    obtain ⟨_, h₁, ⟨⟩⟩ := Scan.run_bind_pure_eq_ok_iff.1 h
    rcases reads_line h₁ with ⟨e', -, hw⟩ | ⟨b₂, ht, hend⟩
    · exact hread hw
    · -- an end of input would have consumed nothing behind the text
      have ht' : Consumes t b b' := by simpa using (ht.consumes (.refl b)).next hend
      exact absurd (ht'.unique hv) (by simp)
  | delimited hd =>
    obtain ⟨_, h₁, ⟨⟩⟩ := Scan.run_bind_pure_eq_ok_iff.1 h
    obtain ⟨b₂, h₂, h₃⟩ := delimited_eq_some h₁
    exact hread (.cons h₂ (reads_contentFrom hd h₃))
  | exactly =>
    obtain ⟨_, h₁, ⟨⟩⟩ := Scan.run_bind_pure_eq_ok_iff.1 h
    exact hread (reads_exactly h₁)

/-- Any other token is read, and at most one character behind it is looked at. -/
theorem Request.LooksAhead.reads {b b' : Buffered σ} (hr : r.LooksAhead reply)
    (h : r.perform.run b = .ok reply b') : ∃ v, Reads v b b' ∨ ReadsAhead v b b' := by
  cases hr with
  | digits =>
    obtain ⟨_, h₁, ⟨⟩⟩ := Scan.run_bind_pure_eq_ok_iff.1 h
    exact ⟨_, .inr (readsAhead_nonemptySpan h₁).2⟩
  | word =>
    obtain ⟨_, h₁, ⟨⟩⟩ := Scan.run_bind_pure_eq_ok_iff.1 h
    exact ⟨_, .inr (readsAhead_nonemptySpan h₁).2⟩
  | unsigned =>
    obtain ⟨a, h₁, ha⟩ := Scan.run_bind_pure_eq_ok_iff.1 h
    cases a with
    | none => cases ha
    | some n =>
      obtain ⟨v, hv⟩ := readsAhead_unsigned h₁
      exact ⟨v, .inr hv⟩
  | signed =>
    obtain ⟨_, h₁, ⟨⟩⟩ := Scan.run_bind_pure_eq_ok_iff.1 h
    obtain ⟨v, hv⟩ := readsAhead_signed h₁
    exact ⟨v, .inr hv⟩
  | boolean =>
    obtain ⟨_, h₁, ⟨⟩⟩ := Scan.run_bind_pure_eq_ok_iff.1 h
    obtain ⟨v, hv⟩ := reads_boolean h₁
    exact ⟨v, .inl hv⟩
  | delimited hd =>
    obtain ⟨_, h₁, ⟨⟩⟩ := Scan.run_bind_pure_eq_ok_iff.1 h
    obtain ⟨b₂, h₂, h₃⟩ := delimited_eq_some h₁
    exact ⟨_, .inr ((readsAhead_contentFrom hd h₃).cons h₂)⟩
  | dropBlanks =>
    obtain ⟨_, h₁, -⟩ := Scan.run_bind_pure_eq_ok_iff.1 h
    obtain ⟨t, h₂, -⟩ := Scan.run_bind_pure_eq_ok_iff.1 h₁
    exact ⟨t, .inr (readsAhead_span h₂)⟩

theorem Request.LooksAhead.answers_le {b b' : Buffered (Asked σ)} (hr : r.LooksAhead reply)
    (h : r.perform.run b = .ok reply b') (hv : Consumes v b b') :
    ∃ answers, b'.source.answers = b.source.answers ++ answers ∧
      answers.length ≤ v.length + 1 - b.pending.length ∧
      b'.pending.length ≤ max (b.pending.length - v.length) 1 := by
  obtain ⟨w, hw | hw⟩ := hr.reads h
  · obtain rfl := (hw.consumes (.refl b)).unique hv
    exact hw.answers_le
  · obtain rfl := hw.consumes.unique hv
    exact hw.answers_le

/-- **Bounded look-ahead.** Let a request that only reads succeed on a buffered source with `p`
characters pending, and let `c` be the length of the text `v` that it consumes, by which the counter
grows. If its token shows where it ends, the source was asked exactly as often as `c` exceeds `p`, and
answered with a character each time; so no end, no fault and no character behind the token was asked
for. If it is another token, or if blanks were left out, the source was asked at most once more.
The answers are those that the source gives when it keeps them. -/
theorem lookahead_bounded {b b' : Buffered σ} (hr : r.isReading = true)
    (hb : r ≠ .dropBlankLines) (h : r.perform.run b = .ok reply b') :
    ∃ answers v, r.perform.run (b.asking []) = .ok reply (b'.asking answers) ∧
      b.pending ++ handed answers = v ++ b'.pending ∧ b'.offset = b.offset + v.length ∧
      (r.Closes v reply → answers.length = v.length - b.pending.length ∧
        (∀ answer ∈ answers, ∃ c, answer = .ok (some c)) ∧
        b'.pending.length = b.pending.length - v.length) ∧
      (r.LooksAhead reply → answers.length ≤ v.length + 1 - b.pending.length ∧
        b'.pending.length ≤ max (b.pending.length - v.length) 1) := by
  obtain ⟨answers, hrun⟩ := perform_asking h []
  obtain ⟨v, hv⟩ := perform_accounts hr hb hrun
  refine ⟨answers, v, hrun, ?_, hv.offset, ?_, ?_⟩
  · obtain ⟨answers', ha, htext⟩ := hv.text
    obtain rfl : answers = answers' := ha
    exact htext
  · intro hclose
    obtain ⟨hp, ha⟩ := (hclose.reads hrun hv).answers_eq
    obtain rfl : answers = _ := ha
    refine ⟨?_, ?_, ?_⟩
    · simp [asking]
    · intro answer hmem
      obtain ⟨c, -, rfl⟩ := List.mem_map.1 hmem
      exact ⟨c, rfl⟩
    · exact (congrArg List.length hp).trans (List.length_drop ..)
  · intro hlook
    obtain ⟨answers', ha, hlen, hp⟩ := hlook.answers_le hrun hv
    obtain rfl : answers = answers' := ha
    exact ⟨hlen, hp⟩

end Requests

/-- A line of which a character was pending, before a reader that fails: the failure is not met. And a
doubled literal before the end in the middle of a feed: the end is asked for once. -/
theorem lookahead_bounded_before_failure :
    (let b : Buffered ByteSource :=
        { source := { script := [.data [0x62, 0x0D], .failure "lost"] }, pending := ['a'], capacity := 1 }
      ∃ (b' : Buffered ByteSource) (answers : List Answer) (v : Text),
        Request.line.perform.run (b.asking []) = .ok (.text (some ['a', 'b'])) (b'.asking answers) ∧
        Request.line.Closes v (.text (some ['a', 'b'])) ∧ b'.offset = b.offset + v.length ∧
        answers.length = v.length - b.pending.length ∧ answers.length = 2) ∧
    (let b : Buffered Feed :=
        { source := ⟨[some 'a', some '%', none, some 'z']⟩, pending := ['%'], capacity := 1 }
      let r : Request := .delimited (.doubling '%')
      ∃ (b' : Buffered Feed) (answers : List Answer) (v : Text),
        r.perform.run (b.asking []) = .ok (.text (some ['a'])) (b'.asking answers) ∧
        r.LooksAhead (.text (some ['a'])) ∧ b'.offset = b.offset + v.length ∧
        answers.length ≤ v.length + 1 - b.pending.length ∧ answers.length = 3) := by
  constructor
  · intro b
    let b' : Buffered ByteSource :=
      { source := { script := [.data [], .failure "lost"], consumed := 2 }, capacity := 1, offset := 3 }
    have hrun : Request.line.perform.run b = .ok (.text (some ['a', 'b'])) b' := by decide +kernel
    have hasked : Request.line.perform.run (b.asking []) =
        .ok (.text (some ['a', 'b'])) (b'.asking [.ok (some 'b'), .ok (some '\r')]) := by
      decide +kernel
    obtain ⟨answers, v, hanswers, htext, hoffset, hclose, -⟩ :=
      lookahead_bounded (by decide) (by decide) hrun
    obtain rfl : answers = [.ok (some 'b'), .ok (some '\r')] := by
      simpa [asking] using hanswers.symm.trans hasked
    obtain rfl : v = ['a', 'b'] ++ ['\r'] := by simpa [b, b', handed] using htext.symm
    exact ⟨b', _, _, hasked, .line (by decide), hoffset, (hclose (.line (by decide))).1, rfl⟩
  · intro b r
    let b' : Buffered Feed := { source := ⟨[some 'z']⟩, capacity := 1, offset := 3 }
    have hrun : r.perform.run b = .ok (.text (some ['a'])) b' := by decide +kernel
    have hasked : r.perform.run (b.asking []) = .ok (.text (some ['a']))
        (b'.asking [.ok (some 'a'), .ok (some '%'), .ok none]) := by
      decide +kernel
    obtain ⟨answers, v, hanswers, -, hoffset, -, hlook⟩ :=
      lookahead_bounded (by decide) (by decide) hrun
    obtain rfl : answers = [.ok (some 'a'), .ok (some '%'), .ok none] := by
      simpa [asking] using hanswers.symm.trans hasked
    exact ⟨b', _, v, hasked, .delimited rfl, hoffset, (hlook (.delimited rfl)).1, rfl⟩

end Rescan
