import Rescan.Proofs.Tape
import Rescan.Token.Delimited
import Rescan.Token.Numeral

/-!
# Recognizers on a stack

A stack has room for everything, so a recognizer does on it what its description says: it answers
the token at the front of the text and leaves the rest, or it finds the token absent and leaves the
text as it is. The statements say this in the form in which they can be chained: the text is given
as the token followed by a rest whose first character does not belong to it.

## Main definitions

* `Delimiters.closesAt`: whether a character of the content ends the literal.

## Main statements

* `Stack.span_run`, `line_run`, `exactly_run`, `boolean_run`, `signed_run_sign`,
  `signed_run_digits`, `delimited_run`: the token is there.
* `Stack.exactly_absent`, `boolean_absent`, `signed_absent`: the token is not there.
* `Stack.delimited_unclosed`: the token has no end.
-/

namespace Rescan

open CharStream

/-- To go on with an answer is to apply a function to the value. -/
@[simp] theorem Outcome.bind_run_pure {σ α β : Type} (o : Outcome σ α) (f : α → β) :
    (o.bind fun a => (pure (f a) : Scan σ β).run) = o.map f := by
  cases o <;> rfl

/-- Whether the character `c` of the content ends the literal, by the one before it and the one
after it. -/
def Delimiters.closesAt (d : Delimiters) (before : Option Char) (c : Char) (after : Option Char) :
    Bool :=
  c == d.closing && ! d.escapedBy before && ! (d.isDoubling && after == some c)

/-- A delimiter that is doubled ends the literal where it stands alone. -/
theorem Delimiters.closesAt_of_isDoubling {d : Delimiters} (hd : d.isDoubling = true) {c : Char}
    {before after : Option Char} :
    d.closesAt before c after = true ↔
      c = d.closing ∧ before ≠ some d.closing ∧ after ≠ some d.closing := by
  have he : d.escape = some d.closing := beq_iff_eq.1 hd
  by_cases hc : c = d.closing
  · subst hc
    cases before <;> simp [closesAt, hd, escapedBy, he, @eq_comm _ d.closing]
  · simp [closesAt, hc]

/-- A delimiter that is not doubled ends the literal where it is not escaped. -/
theorem Delimiters.closesAt_of_not_isDoubling {d : Delimiters} (hd : d.isDoubling = false) {c : Char}
    {before after : Option Char} :
    d.closesAt before c after = true ↔ c = d.closing ∧ d.escapedBy before = false := by
  simp [closesAt, hd]

theorem Delimiters.isDoubling_doubling (q : Char) : (doubling q).isDoubling = true :=
  beq_self_eq_true (some q)

theorem Delimiters.closesAt_doubling {q c : Char} {before after : Option Char} :
    (doubling q).closesAt before c after = true ↔ c = q ∧ before ≠ some q ∧ after ≠ some q :=
  closesAt_of_isDoubling (isDoubling_doubling q)

/-- An index at which there is a character divides the text there. -/
theorem Text.exists_append_of_getElem? {x : Text} {i : Nat} {c : Char} (h : x[i]? = some c) :
    ∃ u v, x = u ++ c :: v ∧ u.length = i := by
  obtain ⟨hi, hc⟩ := List.getElem?_eq_some_iff.1 h
  refine ⟨x.take i, x.drop (i + 1), ?_, List.length_take_of_le (Nat.le_of_lt hi)⟩
  rw [← hc, ← List.drop_eq_getElem_cons, List.take_append_drop]

/-- What stands before the rest of a content is its first character, if nothing else. -/
theorem Text.getLast?_cons_or (c : Char) (u : Text) (before : Option Char) :
    (c :: u).getLast?.or before = u.getLast?.or (some c) := by
  rw [List.getLast?_cons]
  cases u.getLast? <;> rfl

namespace Stack

/-! ## Reading and handing back -/

@[simp] theorem next_run_nil :
    Source.next.run (⟨[]⟩ : Stack) = .ok none ⟨[]⟩ := rfl

@[simp] theorem next_run_cons (c : Char) (x : Text) :
    Source.next.run (⟨c :: x⟩ : Stack) = .ok (some c) ⟨x⟩ := rfl

theorem next_eq_some {s s' : Stack} {c : Char} (h : Source.next.run s = .ok (some c) s') :
    s.chars = c :: s'.chars := by
  obtain ⟨_ | ⟨d, x⟩⟩ := s
  · cases h
  · cases h
    rfl

@[simp] theorem putBack_run (t x : Text) :
    (CharStream.putBack t).run (⟨x⟩ : Stack) = .ok () ⟨t ++ x⟩ := rfl

@[simp] theorem handBack_run (c : Option Char) (x : Text) :
    (handBack c).run (⟨x⟩ : Stack) = .ok () ⟨c.toList ++ x⟩ := by
  cases c <;> rfl

@[simp] theorem peek_run (x : Text) :
    peek.run (⟨x⟩ : Stack) = .ok x.head? ⟨x⟩ := by
  cases x <;> rfl

/-! ## Spans and lines -/

section Text

variable {p : Char → Bool} {t rest : Text} {c : Char}

/-- A span ends where the rest begins. -/
theorem span_run (ht : ∀ c ∈ t, p c = true) (hr : ∀ c ∈ rest.head?, p c = false) :
    (span p).run (⟨t ++ rest⟩ : Stack) = .ok t ⟨rest⟩ := by
  cases rest with
  | nil =>
    rw [List.append_nil]
    exact tape.span_all ht 0
  | cons d rest => exact tape.span_stop ht (hr d rfl) 0

/-- A span of any text. -/
theorem span_run_eq (p : Char → Bool) (x : Text) :
    (span p).run (⟨x⟩ : Stack) = .ok (x.takeWhile p) ⟨x.dropWhile p⟩ := by
  have hrun : (span p).run (⟨x.takeWhile p ++ x.dropWhile p⟩ : Stack) = _ :=
    span_run (fun _ => List.mem_takeWhile_imp) fun _ => eq_false_of_head?_dropWhile
  rwa [List.takeWhile_append_dropWhile] at hrun

/-- A rest that begins a span of its own makes the span longer. -/
theorem span_run_append (ht : ∀ c ∈ t, p c = true) (x : Text) :
    (span p).run (⟨t ++ x⟩ : Stack) = ((span p).run ⟨x⟩).map (t ++ ·) := by
  obtain ⟨u, rest, rfl, hu, hr⟩ := exists_span p x
  have htu : ∀ c ∈ t ++ u, p c = true := List.forall_mem_append.2 ⟨ht, hu⟩
  rw [← List.append_assoc, span_run htu hr, span_run hu hr]
  rfl

/-- Whatever is left, what was read belongs to the span. -/
theorem span_eq_ok {s s' : Stack} (h : (span p).run s = .ok t s') :
    s.chars = t ++ s'.chars ∧ ∀ c ∈ t, p c = true := by
  obtain ⟨x⟩ := s
  rw [span_run_eq] at h
  cases h
  exact ⟨List.takeWhile_append_dropWhile.symm, fun _ => List.mem_takeWhile_imp⟩

theorem nonemptySpan_run (ht : ∀ c ∈ t, p c = true) (hr : ∀ c ∈ rest.head?, p c = false)
    (hne : t ≠ []) : (nonemptySpan p).run (⟨t ++ rest⟩ : Stack) = .ok (some t) ⟨rest⟩ := by
  simp [nonemptySpan, span_run ht hr, hne]

/-- A span that is present begins what it was read from. -/
theorem nonemptySpan_eq_some {s s' : Stack} (h : (nonemptySpan p).run s = .ok (some t) s') :
    t ≠ [] ∧ s.chars = t ++ s'.chars := by
  obtain ⟨u, hu, hpresent⟩ := Scan.run_bind_pure_eq_ok_iff.1 h
  cases u with
  | nil => cases hpresent
  | cons c u =>
    cases hpresent
    exact ⟨List.cons_ne_nil c u, (span_eq_ok hu).1⟩

theorem nonemptySpan_absent (hr : ∀ c ∈ rest.head?, p c = false) :
    (nonemptySpan p).run (⟨rest⟩ : Stack) = .ok none ⟨rest⟩ := by
  have hspan : (span p).run (⟨[] ++ rest⟩ : Stack) = .ok [] ⟨rest⟩ := span_run (by simp) hr
  rw [List.nil_append] at hspan
  simp [nonemptySpan, hspan]

/-- A line is what stands before the character that ends it. -/
theorem line_run (ht : ∀ c ∈ t, endsLine c = false) (hc : endsLine c = true) :
    line.run (⟨t ++ c :: rest⟩ : Stack) = .ok (some t) ⟨rest⟩ :=
  tape.line_ended ht hc 0

/-- The last line is all of the text; there is no line if there is no text. -/
theorem line_run_last (ht : ∀ c ∈ t, endsLine c = false) :
    ∃ l, line.run (⟨t⟩ : Stack) = .ok l ⟨[]⟩ ∧ l.getD [] = t := by
  cases t with
  | nil => exact ⟨none, tape.line_nil 0, rfl⟩
  | cons c t => exact ⟨_, tape.line_last ht (List.cons_ne_nil c t) 0, rfl⟩

/-! ## Fixed texts and truth values -/

theorem exactly_run (t rest : Text) :
    (exactly t).run (⟨t ++ rest⟩ : Stack) = .ok true ⟨rest⟩ := by
  have hfollow : (follow t).run (⟨t ++ rest⟩ : Stack) = .ok t ⟨rest⟩ := tape.follow_all t 0
  simp [exactly, hfollow]

/-- A text that does not come next is put together again. -/
theorem exactly_absent {x : Text} (h : ¬ t <+: x) :
    (exactly t).run (⟨x⟩ : Stack) = .ok false ⟨x⟩ := by
  rcases prefix_or_mismatch t x with hp | ⟨k, hk⟩
  · exact absurd hp h
  · have hfollow : (follow t).run (⟨x⟩ : Stack) = .ok (x.take k) ⟨x.drop k⟩ := tape.follow_stop hk 0
    have hne : x.take k ≠ t := fun ht => h (ht ▸ List.take_prefix k x)
    simp [exactly, hfollow, hne]

theorem boolean_run (b : Bool) (rest : Text) :
    boolean.run (⟨truthName b ++ rest⟩ : Stack) = .ok (some b) ⟨rest⟩ := by
  have htruth : (truth b).run (⟨truthName b ++ rest⟩ : Stack) = .ok (some b) ⟨rest⟩ := by
    simp [truth, exactly_run]
  rw [boolean, Scan.run_bind, peek_run, Outcome.bind_ok]
  cases b with
  | true => simpa [truthName] using htruth
  | false => simpa [truthName] using htruth

/-- No name of a truth value comes next. -/
theorem boolean_absent {x : Text} (h : ∀ b, ¬ truthName b <+: x) :
    boolean.run (⟨x⟩ : Stack) = .ok none ⟨x⟩ := by
  have htruth (b : Bool) : (truth b).run (⟨x⟩ : Stack) = .ok none ⟨x⟩ := by
    simp [truth, exactly_absent (h b)]
  rw [boolean, Scan.run_bind, peek_run, Outcome.bind_ok]
  split
  · exact htruth true
  · exact htruth false
  · rfl

/-! ## Numbers -/

section Digits

variable {ds : Text} (hds : ∀ c ∈ ds, c.isDigit = true) (hne : ds ≠ [])
  (hr : ∀ c ∈ rest.head?, c.isDigit = false)

include hds hne hr

/-- A sign, digits, and a rest that does not begin with another digit. -/
theorem signed_run_sign {s : Char} (hs : s = '+' ∨ s = '-') :
    signed.run (⟨s :: (ds ++ rest)⟩ : Stack) = ((inRange (s = '-') ds).run ⟨rest⟩).map some := by
  have hdigits : digits.run (⟨ds ++ rest⟩ : Stack) = .ok (some ds) ⟨rest⟩ :=
    nonemptySpan_run hds hr hne
  rw [signed, Scan.run_bind, peek_run, Outcome.bind_ok, List.head?_cons]
  dsimp only
  rw [if_pos hs, Scan.run_bind, next_run_cons, Outcome.bind_ok, Scan.run_bind, hdigits,
    Outcome.bind_ok]
  dsimp only
  rw [Scan.run_bind, Outcome.bind_run_pure]

theorem signed_run_digits :
    signed.run (⟨ds ++ rest⟩ : Stack) = ((inRange false ds).run ⟨rest⟩).map some := by
  have hdigits : digits.run (⟨ds ++ rest⟩ : Stack) = .ok (some ds) ⟨rest⟩ :=
    nonemptySpan_run hds hr hne
  cases ds with
  | nil => exact absurd rfl hne
  | cons d ds =>
    have hd : d.isDigit = true := hds d List.mem_cons_self
    have hs : ¬ (d = '+' ∨ d = '-') := by
      intro hs
      rcases hs with rfl | rfl <;> exact absurd hd (by decide)
    rw [signed, Scan.run_bind, peek_run, Outcome.bind_ok, List.cons_append, List.head?_cons]
    dsimp only
    rw [if_neg hs, if_pos hd, Scan.run_bind, ← List.cons_append, hdigits, Outcome.bind_ok]
    dsimp only
    rw [Scan.run_bind, Outcome.bind_run_pure]

end Digits

/-- Neither a digit nor a sign before a digit comes next. -/
theorem signed_absent {x : Text} (hdigit : ∀ c ∈ x.head?, c.isDigit = false)
    (hsign : ∀ s y, x = s :: y → s = '+' ∨ s = '-' → ∀ c ∈ y.head?, c.isDigit = false) :
    signed.run (⟨x⟩ : Stack) = .ok none ⟨x⟩ := by
  cases x with
  | nil => rfl
  | cons s y =>
    by_cases hs : s = '+' ∨ s = '-'
    · -- the sign is read, and put back behind the look-ahead of the digits
      have hdigits : digits.run (⟨y⟩ : Stack) = .ok none ⟨y⟩ :=
        nonemptySpan_absent (hsign s y rfl hs)
      simp [signed, hs, hdigits]
    · have hd : s.isDigit = false := hdigit s rfl
      simp [signed, hs, hd]

end Text

/-! ## Delimited literals -/

theorem contentFrom_nil (d : Delimiters) (before : Option Char) :
    contentFrom d before (⟨[]⟩ : Stack) = .error (.unclosed d.closing) ⟨[]⟩ := by
  rw [contentFrom_eq]
  rfl

/-- One character of the content, with the next one looked at. -/
theorem contentFrom_cons (d : Delimiters) (before : Option Char) (c : Char) (x : Text) :
    contentFrom d before (⟨c :: x⟩ : Stack) =
      if d.closesAt before c x.head? then .ok [] ⟨x⟩
      else (contentFrom d (some c) ⟨x⟩).map (c :: ·) := by
  rw [contentFrom_eq]
  simp only [next_run_cons, Outcome.bind_ok, peek_run]
  by_cases hclose : c = d.closing ∧ ¬ d.escapedBy before = true
  · obtain ⟨rfl, hescape⟩ := hclose
    by_cases hd : d.isDoubling = true
    · by_cases hafter : x.head? = some d.closing <;> simp [Delimiters.closesAt, hescape, hd, hafter]
    · simp [Delimiters.closesAt, hescape, hd]
  · rw [if_neg hclose]
    have hnot : d.closesAt before c x.head? = false := by
      by_cases hc : c = d.closing
      · simp [Delimiters.closesAt, not_not.1 (not_and.1 hclose hc)]
      · simp [Delimiters.closesAt, hc]
    simp [hnot]

/-- The content ends at a closing delimiter behind a text in which no character ends it. -/
theorem contentFrom_run {d : Delimiters} {t rest : Text} {before : Option Char}
    (hopen : ∀ u c v, t = u ++ c :: v →
      d.closesAt (u.getLast?.or before) c (v ++ d.closing :: rest).head? = false)
    (hclose : d.closesAt (t.getLast?.or before) d.closing rest.head? = true) :
    contentFrom d before (⟨t ++ d.closing :: rest⟩ : Stack) = .ok t ⟨rest⟩ := by
  induction t generalizing before with
  | nil =>
    rw [List.getLast?_nil, Option.none_or] at hclose
    rw [List.nil_append, contentFrom_cons, if_pos hclose]
  | cons c t ih =>
    have hc := hopen [] c t rfl
    rw [List.getLast?_nil, Option.none_or] at hc
    have hrest : contentFrom d (some c) (⟨t ++ d.closing :: rest⟩ : Stack) = .ok t ⟨rest⟩ := by
      apply ih
      · intro u c' v ht
        rw [← Text.getLast?_cons_or c u before]
        exact hopen (c :: u) c' v (by rw [ht, List.cons_append])
      · rw [← Text.getLast?_cons_or c t before]
        exact hclose
    rw [List.cons_append, contentFrom_cons, hc, hrest]
    rfl

/-- Where no character ends the content, all of the text is read for a delimiter that is missing. -/
theorem contentFrom_unclosed {d : Delimiters} {x : Text} {before : Option Char}
    (hopen : ∀ u c v, x = u ++ c :: v → d.closesAt (u.getLast?.or before) c v.head? = false) :
    contentFrom d before (⟨x⟩ : Stack) = .error (.unclosed d.closing) ⟨[]⟩ := by
  induction x generalizing before with
  | nil => exact contentFrom_nil d before
  | cons c x ih =>
    have hc := hopen [] c x rfl
    rw [List.getLast?_nil, Option.none_or] at hc
    have hrest : contentFrom d (some c) (⟨x⟩ : Stack) = .error (.unclosed d.closing) ⟨[]⟩ := by
      apply ih
      intro u c' v hx
      rw [← Text.getLast?_cons_or c u before]
      exact hopen (c :: u) c' v (by rw [hx, List.cons_append])
    rw [contentFrom_cons, hc, hrest]
    rfl

/-- A content that is read has ended at a closing delimiter. -/
theorem closesAt_of_contentFrom {d : Delimiters} {x t : Text} {before : Option Char} {s : Stack}
    (h : contentFrom d before (⟨x⟩ : Stack) = .ok t s) :
    x = t ++ d.closing :: s.chars ∧
      d.closesAt (t.getLast?.or before) d.closing s.chars.head? = true := by
  induction x generalizing before t with
  | nil =>
    rw [contentFrom_nil] at h
    cases h
  | cons c x ih =>
    rw [contentFrom_cons] at h
    split at h
    · next hclose =>
      -- the closing delimiter
      cases h
      obtain rfl : c = d.closing := by simp_all [Delimiters.closesAt]
      exact ⟨rfl, by rwa [List.getLast?_nil, Option.none_or]⟩
    · -- one character more of the content
      obtain ⟨u, hu, rfl⟩ := Outcome.map_eq_ok_iff.1 h
      obtain ⟨rfl, hclose⟩ := ih hu
      exact ⟨rfl, by rwa [Text.getLast?_cons_or]⟩

/-- Behind the opening delimiter there is the content. -/
theorem delimited_opened (d : Delimiters) (x : Text) :
    (delimited d).run (⟨d.opening :: x⟩ : Stack) = (contentFrom d none ⟨x⟩).map some := by
  rw [delimited, Scan.run_bind, next_run_cons, Outcome.bind_ok, if_pos rfl, Scan.run_bind,
    Outcome.bind_run_pure]

theorem delimited_run {d : Delimiters} {t rest : Text}
    (hopen : ∀ u c v, t = u ++ c :: v →
      d.closesAt u.getLast? c (v ++ d.closing :: rest).head? = false)
    (hclose : d.closesAt t.getLast? d.closing rest.head? = true) :
    (delimited d).run (⟨d.opening :: (t ++ d.closing :: rest)⟩ : Stack) = .ok (some t) ⟨rest⟩ := by
  have hcontent : contentFrom d none (⟨t ++ d.closing :: rest⟩ : Stack) = .ok t ⟨rest⟩ :=
    contentFrom_run (by simpa using hopen) (by simpa using hclose)
  rw [delimited_opened, hcontent, Outcome.map_ok]

theorem delimited_unclosed {d : Delimiters} {x : Text}
    (hopen : ∀ u c v, x = u ++ c :: v → d.closesAt u.getLast? c v.head? = false) :
    (delimited d).run (⟨d.opening :: x⟩ : Stack) = .error (.unclosed d.closing) ⟨[]⟩ := by
  have hcontent : contentFrom d none (⟨x⟩ : Stack) = .error (.unclosed d.closing) ⟨[]⟩ :=
    contentFrom_unclosed (by simpa using hopen)
  rw [delimited_opened, hcontent, Outcome.map_error]

end Stack

end Rescan
