import Rescan.Proofs.Division
import Rescan.Proofs.Room
import Rescan.Proofs.Tape

/-!
# When a buffer overflows

Whether a request overflows a buffer can be told from the capacity and the stream, and so can how
much room was requested. What is pending does not matter, although it takes room: the same stream
can be divided so that nothing is pending, and the division cannot be observed. On a tape, where
nothing is pending, a recognizer overflows exactly if it hands back more at once than the capacity,
and what it hands back there can be read off the text.

## Main definitions

* `Text.firstFullLine`: the first line that is not blank.
* `Request.Overflows`: the streams on which a request overflows, and the room it requests.

## Main statements

* `overflow_span`, `overflow_exactly`, `overflow_boolean`, `overflow_signed`, `overflow_delimited`,
  `overflow_dropBlankLines`: the recognizers on a tape.
* `overflow_exact`: a request overflows exactly on the streams that `Request.Overflows` tells.
-/

namespace Rescan

open Buffered

/-! ## What overflows -/

/-- The first line that is not blank, where lines are divided at every character that ends one. -/
def Text.firstFullLine (x : Text) : Option Text :=
  (x.splitOnP endsLine).find? (! Text.isBlank ·)

/-- Whether a request that only reads overflows a buffer of the given capacity on the stream `x`,
and requests so much room. -/
def Request.Overflows (capacity : Nat) (x : Text) (requested : Nat) : Request → Prop
  | .next | .line | .remainder => False
  | .peek => capacity = 0 ∧ requested = 1 ∧ x ≠ []
  | .digits | .unsigned => capacity = 0 ∧ requested = 1 ∧ ∃ c ∈ x, c.isDigit = false
  | .word => capacity = 0 ∧ requested = 1 ∧ ∃ c ∈ x, isBlank c = true
  | .dropBlanks => capacity = 0 ∧ requested = 1 ∧ ∃ c ∈ x, isBlank c = false
  | .delimited d => capacity = 0 ∧ requested = 1 ∧
      ((d.restore = true ∧ ∃ c rest, x = c :: rest ∧ c ≠ d.opening) ∨
        -- the first closing delimiter is followed by another character
        (d.isDoubling = true ∧
          ∃ u c v, x = d.opening :: (u ++ d.closing :: c :: v) ∧ d.closing ∉ u))
  | .signed => (capacity = 0 ∧ requested = 1 ∧ x ≠ []) ∨
      (capacity = 1 ∧ requested = 2 ∧
        ∃ sign c rest, x = sign :: c :: rest ∧ (sign = '+' ∨ sign = '-') ∧ c.isDigit = false)
  | .exactly t => capacity < requested ∧ Mismatch t x requested
  | .truth b => capacity < requested ∧ Mismatch (truthName b) x requested
  | .boolean => (capacity = 0 ∧ requested = 1 ∧ x ≠ []) ∨
      (0 < capacity ∧ capacity < requested ∧
        ∃ b, x.head? = (truthName b).head? ∧ Mismatch (truthName b) x requested)
  | .dropBlankLines => capacity < requested ∧
      ∃ l, x.firstFullLine = some l ∧ requested = l.length + 1
  | .handBack _ | .putBack _ => False

/-! ## Results -/

section Result

variable {σ α β : Type}

@[simp] theorem Outcome.result_ok (a : α) (s : σ) : (Outcome.ok a s).result = .ok a := rfl

@[simp] theorem Outcome.result_error (e : Fault) (s : σ) :
    (Outcome.error e s : Outcome σ α).result = .error e := rfl

/-- A function that is applied to the value does not touch a fault. -/
@[simp] theorem Outcome.result_map_eq_error_iff {f : α → β} {o : Outcome σ α} {e : Fault} :
    (o.map f).result = .error e ↔ o.result = .error e := by
  cases o <;> simp

/-- An action that only goes on to answer something has the faults of its first part. -/
theorem Scan.result_bind_pure {x : Scan σ α} {f : α → β} {s : σ} {e : Fault} :
    ((x >>= fun a => pure (f a)).run s).result = .error e ↔ (x.run s).result = .error e := by
  rw [Scan.run_bind]
  cases x.run s <;> simp

/-- Where there is room there is no overflow. -/
theorem Outcome.Fits.result_ne {n : Nat} {o : Outcome (Buffered σ) α} (h : o.Fits n) (c k : Nat) :
    o.result ≠ .error (.overfull c k) := by
  intro ho
  have := h.isOverfull_eq
  cases o with
  | ok a s => cases ho
  | error e s =>
    cases ho
    cases this

end Result

/-! ## Handing back on a tape -/

section Tape

variable {n c k m : Nat} {x : Text}

theorem within_tape (n m : Nat) (x : Text) : ((tape n).state m x).Within n :=
  ⟨rfl, Nat.zero_le n⟩

/-- Handing back on a tape overflows if the text is longer than the capacity. -/
theorem overflow_putBack (t : Text) :
    ((CharStream.putBack t).run ((tape n).state m x)).result = .error (.overfull c k) ↔
      c = n ∧ n < k ∧ k = t.length := by
  change (Buffered.putBack t _).result = _ ↔ _
  simp only [Buffered.putBack, tape, List.length_nil, Nat.zero_add]
  split
  · simp only [Outcome.result_error, Except.error.injEq, Fault.overfull.injEq]
    omega
  · simp only [Outcome.result_ok, reduceCtorEq, false_iff]
    omega

/-- If there is room for a character, a span keeps the one that ends it pending. -/
theorem span_tape_stop {p : Char → Bool} {t rest : Text} {d : Char} (hn : 1 ≤ n)
    (ht : ∀ c ∈ t, p c = true) (hd : p d = false) :
    (span p).run ((tape n).state m (t ++ d :: rest)) =
      .ok t { source := ⟨rest⟩, pending := [d], capacity := n, offset := m + t.length } := by
  have hput : (CharStream.putBack [d]).run ((tape n).state (m + t.length + 1) rest) = _ :=
    putBack_eq_ok_iff.2 ⟨hn, rfl⟩
  rw [Tape.span_stop _ ht hd, hput]
  rfl

theorem peek_tape_cons {d : Char} (hn : 1 ≤ n) :
    CharStream.peek.run ((tape n).state m (d :: x)) =
      .ok (some d) { source := ⟨x⟩, pending := [d], capacity := n, offset := m } := by
  have hput : (CharStream.putBack [d]).run ((tape n).state (m + 1) x) = _ :=
    putBack_eq_ok_iff.2 ⟨hn, rfl⟩
  simp only [CharStream.peek, Scan.run_bind, (tape n).next_cons, Outcome.bind_ok,
    CharStream.handBack, hput]
  rfl

/-! ## Recognizers on a tape -/

theorem overflow_peek :
    (CharStream.peek.run ((tape n).state m x)).result = .error (.overfull c k) ↔
      c = n ∧ n = 0 ∧ k = 1 ∧ x ≠ [] := by
  cases x with
  | nil => simp [CharStream.peek, (tape n).next_nil, CharStream.handBack]
  | cons d x =>
    have hback : (CharStream.peek.run ((tape n).state m (d :: x))).result = .error (.overfull c k) ↔
        ((CharStream.putBack [d]).run ((tape n).state (m + 1) x)).result =
          .error (.overfull c k) := by
      simp only [CharStream.peek, Scan.run_bind, (tape n).next_cons, Outcome.bind_ok,
        CharStream.handBack]
      cases (CharStream.putBack [d]).run ((tape n).state (m + 1) x) <;> simp
    rw [hback, overflow_putBack]
    simp only [List.length_singleton, ne_eq, reduceCtorEq, not_false_eq_true, and_true]
    omega

/-- Without capacity a look-ahead overflows wherever there is something to look at, and nothing
comes after it. -/
theorem overflow_peek_bind {α : Type} {f : Option Char → Scan (Buffered Passage) α} {a : α}
    (hf : f none = pure a) :
    ((CharStream.peek >>= f).run ((tape 0).state m x)).result = .error (.overfull c k) ↔
      c = 0 ∧ k = 1 ∧ x ≠ [] := by
  cases x with
  | nil =>
    have hend : CharStream.peek.run ((tape 0).state m []) = .ok none ((tape 0).state m []) := rfl
    simp [hend, hf]
  | cons d x =>
    have hfault : CharStream.peek.run ((tape 0).state m (d :: x)) =
        .error (.overfull 0 1) ((tape 0).state (m + 1) x) := rfl
    simp only [Scan.run_bind, hfault, Outcome.bind_error, Outcome.result_error, Except.error.injEq,
      Fault.overfull.injEq, ne_eq, reduceCtorEq, not_false_eq_true, and_true]
    omega

/-- A span hands one character back, if the text does not end first. -/
theorem overflow_span (p : Char → Bool) :
    ((span p).run ((tape n).state m x)).result = .error (.overfull c k) ↔
      c = n ∧ n = 0 ∧ k = 1 ∧ ∃ d ∈ x, p d = false := by
  obtain ⟨t, rest, rfl, ht, hrest⟩ := exists_span p x
  cases rest with
  | nil =>
    -- the span is all of the text, and an end is not handed back
    rw [List.append_nil, Tape.span_all _ ht]
    simp only [Outcome.result_ok, reduceCtorEq, false_iff]
    intro h
    obtain ⟨-, -, -, d, hd, hpd⟩ := h
    exact Bool.false_ne_true (hpd.symm.trans (ht d hd))
  | cons d rest =>
    have hd : p d = false := hrest d rfl
    rw [Tape.span_stop _ ht hd, Outcome.result_map_eq_error_iff, overflow_putBack]
    have hex : ∃ d' ∈ t ++ d :: rest, p d' = false := ⟨d, by simp, hd⟩
    simp only [List.length_singleton, hex, and_true]
    omega

theorem overflow_nonemptySpan (p : Char → Bool) :
    ((nonemptySpan p).run ((tape n).state m x)).result = .error (.overfull c k) ↔
      c = n ∧ n = 0 ∧ k = 1 ∧ ∃ d ∈ x, p d = false := by
  rw [nonemptySpan, Scan.result_bind_pure, overflow_span]

theorem result_inRange_ne {σ : Type} {negative : Bool} {ds : Text} {s : σ} :
    ((inRange negative ds).run s).result ≠ .error (.overfull c k) := by
  unfold inRange
  split <;> simp

/-- A number that is out of range is no overflow, so only its digits matter. -/
theorem overflow_unsigned :
    (unsigned.run ((tape n).state m x)).result = .error (.overfull c k) ↔
      c = n ∧ n = 0 ∧ k = 1 ∧ ∃ d ∈ x, d.isDigit = false := by
  rw [← overflow_nonemptySpan (m := m), unsigned, digits, Scan.run_bind]
  cases (nonemptySpan Char.isDigit).run ((tape n).state m x) with
  | error e s => simp
  | ok ds s =>
    cases ds with
    | none => simp
    | some ds =>
      simp only [Outcome.bind_ok]
      split <;> simp

/-- A fixed text that does not come next hands back everything that was read for it. -/
theorem overflow_exactly (t : Text) :
    ((exactly t).run ((tape n).state m x)).result = .error (.overfull c k) ↔
      c = n ∧ n < k ∧ Mismatch t x k := by
  rw [exactly, Scan.run_bind]
  rcases prefix_or_mismatch t x with h | ⟨j, h⟩
  · -- the text is there, and nothing is handed back
    obtain ⟨rest, rfl⟩ := h
    rw [Tape.follow_all]
    simp only [Outcome.bind_ok, if_true, Scan.run_pure, Outcome.result_ok, reduceCtorEq, false_iff]
    exact fun hk => hk.2.2.absent (List.prefix_append _ _)
  · -- the text is not there, which shows after `j` characters
    have hne : x.take j ≠ t := fun ht => h.absent (ht ▸ List.take_prefix j x)
    have hback : ((do CharStream.putBack (x.take j); return false : Scan _ Bool).run
        ((tape n).state (m + j) (x.drop j))).result = .error (.overfull c k) ↔
          c = n ∧ n < k ∧ k = (x.take j).length :=
      Scan.result_bind_pure.trans (overflow_putBack _)
    rw [Tape.follow_stop _ h, Outcome.bind_ok]
    simp only [hne, if_false]
    rw [hback, List.length_take_of_le h.le_length]
    -- there is only one number of characters after which it shows
    constructor
    · intro hk
      obtain ⟨rfl, hlt, rfl⟩ := hk
      exact ⟨rfl, hlt, h⟩
    · intro hk
      exact ⟨hk.1, hk.2.1, hk.2.2.unique h⟩

theorem overflow_truth (b : Bool) :
    ((truth b).run ((tape n).state m x)).result = .error (.overfull c k) ↔
      c = n ∧ n < k ∧ Mismatch (truthName b) x k := by
  rw [truth, Scan.result_bind_pure, overflow_exactly]

/-- The look-ahead overflows if there is no capacity; otherwise it has only moved the first
character into the buffer, and the name that it tells to try overflows as it would without it. -/
theorem overflow_boolean :
    (boolean.run ((tape n).state m x)).result = .error (.overfull c k) ↔
      c = n ∧ ((n = 0 ∧ k = 1 ∧ x ≠ []) ∨
        (0 < n ∧ n < k ∧ ∃ b, x.head? = (truthName b).head? ∧ Mismatch (truthName b) x k)) := by
  rcases Nat.eq_zero_or_pos n with rfl | hn
  · -- there is no room for what is looked at
    refine (overflow_peek_bind (a := none) ?_).trans ?_
    · rfl
    · simp
  · obtain ⟨b', hpeek, hdiv⟩ := peek_redivides (b := (tape n).state m x) rfl (Nat.zero_le n) hn
    have hstream : ((tape n).state m x).stream = x := rfl
    rw [hstream] at hpeek
    -- behind the look-ahead a name is tried on another division of the same stream
    have htruth (b : Bool) : ((truth b).run b').result = .error (.overfull c k) ↔
        c = n ∧ n < k ∧ Mismatch (truthName b) x k := by
      have hobs : ((Request.truth b).perform.run ((tape n).state m x)).result =
          ((Request.truth b).perform.run b').result :=
        congrArg Prod.fst (perform_redivided hdiv rfl).1
      rw [← overflow_truth (m := m), ← Scan.result_bind_pure (f := Reply.truth),
        ← Scan.result_bind_pure (s := (tape n).state m x) (f := Reply.truth)]
      exact Eq.congr_left hobs.symm
    rw [boolean, Scan.run_bind, hpeek, Outcome.bind_ok]
    have hnot : ¬ (n = 0 ∧ k = 1 ∧ x ≠ []) := fun h => absurd h.1 (Nat.ne_of_gt hn)
    simp only [hnot, hn, false_or, true_and]
    split
    · next hx =>
      rw [htruth]
      simp [hx, truthName]
    · next hx =>
      rw [htruth]
      simp [hx, truthName]
    · next ht hf =>
      simp only [Scan.run_pure, Outcome.result_ok, reduceCtorEq, false_iff]
      intro h
      obtain ⟨-, -, b, hb, -⟩ := h
      cases b with
      | true => exact ht hb
      | false => exact hf hb

/-- Behind a sign there are digits, or the sign is handed back. By then the character that ended the
empty span of digits is pending again, unless the text has ended, so there has to be room for both. -/
theorem overflow_behind_sign (hn : 1 ≤ n) (sign : Char) (negative : Bool) :
    ((do
      match ← digits with
      | none =>
        CharStream.handBack (some sign)
        return none
      | some ds => return some (← inRange negative ds) :
        Scan (Buffered Passage) (Option Int)).run ((tape n).state m x)).result =
          .error (.overfull c k) ↔
      c = n ∧ n = 1 ∧ k = 2 ∧ ∃ d rest, x = d :: rest ∧ d.isDigit = false := by
  rw [Scan.run_bind, digits, nonemptySpan, Scan.run_bind]
  obtain ⟨t, rest, rfl, ht, hrest⟩ := exists_span Char.isDigit x
  cases t with
  | cons e t =>
    -- a number, which may be out of range but hands nothing back
    have hno : ¬ (c = n ∧ n = 1 ∧ k = 2 ∧
        ∃ d rest', e :: t ++ rest = d :: rest' ∧ d.isDigit = false) := by
      intro h
      obtain ⟨-, -, -, d, rest', hx, hd⟩ := h
      cases hx
      exact Bool.false_ne_true (hd.symm.trans (ht _ List.mem_cons_self))
    refine iff_of_false ?_ hno
    cases rest with
    | nil =>
      rw [List.append_nil, Tape.span_all _ ht]
      exact Scan.result_bind_pure.not.2 result_inRange_ne
    | cons d rest =>
      rw [span_tape_stop hn ht (hrest d rfl)]
      exact Scan.result_bind_pure.not.2 result_inRange_ne
  | nil =>
    cases rest with
    | nil =>
      rw [List.append_nil, Tape.span_all _ ht]
      have hroom := fits_handBack (c := some sign) (within_tape n m []) hn
      refine iff_of_false ?_ (by simp)
      exact Scan.result_bind_pure.not.2 (hroom.result_ne c k)
    | cons d rest =>
      have hd : d.isDigit = false := hrest d rfl
      have hex : ∃ d' rest', d :: rest = d' :: rest' ∧ d'.isDigit = false := ⟨d, rest, rfl, hd⟩
      rw [span_tape_stop hn ht hd]
      refine Scan.result_bind_pure.trans ?_
      change (Buffered.putBack [sign] _).result = _ ↔ _
      simp only [List.nil_append, hex, and_true, Buffered.putBack, List.length_singleton]
      split
      · simp only [Outcome.result_error, Except.error.injEq, Fault.overfull.injEq]
        omega
      · simp only [Outcome.result_ok, reduceCtorEq, false_iff]
        omega

/-- The look-ahead overflows if there is no capacity, and a sign without digits if there is capacity
for one character only. Without a sign one character is enough. -/
theorem overflow_signed :
    (signed.run ((tape n).state m x)).result = .error (.overfull c k) ↔
      c = n ∧ ((n = 0 ∧ k = 1 ∧ x ≠ []) ∨ (n = 1 ∧ k = 2 ∧
        ∃ sign d rest, x = sign :: d :: rest ∧ (sign = '+' ∨ sign = '-') ∧ d.isDigit = false)) := by
  rcases Nat.eq_zero_or_pos n with rfl | hn
  · refine (overflow_peek_bind (a := none) ?_).trans ?_
    · rfl
    · simp
  have hnot : ¬ (n = 0 ∧ k = 1 ∧ x ≠ []) := fun h => absurd h.1 (Nat.ne_of_gt hn)
  simp only [hnot, false_or]
  cases x with
  | nil =>
    have hend : CharStream.peek.run ((tape n).state m []) = .ok none ((tape n).state m []) := rfl
    simp [signed, hend]
  | cons sign x =>
    rw [signed, Scan.run_bind, peek_tape_cons hn, Outcome.bind_ok]
    dsimp only
    by_cases hsign : sign = '+' ∨ sign = '-'
    · -- reading the sign empties the buffer, and the digits are read on a tape
      have hnext : Source.next.run
          ({ source := ⟨x⟩, pending := [sign], capacity := n, offset := m } : Buffered Passage) =
            .ok (some sign) ((tape n).state (m + 1) x) := rfl
      rw [if_pos hsign, Scan.run_bind, hnext, Outcome.bind_ok]
      refine (overflow_behind_sign hn sign _).trans ?_
      simp [hsign]
    · -- without a sign there are at most digits, for which there is room
      have hfits : Scan.Fits 1 (if sign.isDigit = true then do
          match ← digits with
          | none => return none
          | some ds => return some (← inRange false ds)
        else return none : Scan (Buffered Passage) (Option Int)) := by
        split
        · refine (Scan.Fits.nonemptySpan _).bind fun ds => ?_
          cases ds with
          | none => exact .pure _
          | some ds => exact (Scan.Fits.inRange _ _).bind fun _ => .pure _
        · exact .pure _
      rw [if_neg hsign]
      refine iff_of_false ((hfits hn ?_).result_ne c k) ?_
      · exact ⟨rfl, hn⟩
      · intro h
        obtain ⟨-, -, -, s, d, rest, hx, hs, -⟩ := h
        cases hx
        exact hsign hs

/-- Without capacity a look-ahead behind a closing delimiter overflows, unless the text ends there.
The first closing delimiter is the first place where anything is looked at, since none before it
escapes. -/
theorem overflow_contentFrom {d : Delimiters} {before : Option Char} (hd : d.isDoubling = true)
    (hb : d.escapedBy before = false) :
    (contentFrom d before ((tape 0).state m x)).result = .error (.overfull c k) ↔
      c = 0 ∧ k = 1 ∧ ∃ u e v, x = u ++ d.closing :: e :: v ∧ d.closing ∉ u := by
  have hescape : d.escape = some d.closing := by simpa [Delimiters.isDoubling] using hd
  induction x generalizing m before with
  | nil =>
    rw [contentFrom_eq, (tape 0).next_nil]
    simp
  | cons e x ih =>
    rw [contentFrom_eq, (tape 0).next_cons]
    by_cases he : e = d.closing
    · -- the first closing delimiter, behind which there is a look-ahead
      subst he
      cases x with
      | nil =>
        have hend : CharStream.peek.run ((tape 0).state (m + 1) []) =
            .ok none ((tape 0).state (m + 1) []) := rfl
        simp [hb, hd, hend, List.cons_eq_append_iff]
      | cons e x =>
        have hfault : CharStream.peek.run ((tape 0).state (m + 1) (e :: x)) =
            .error (.overfull 0 1) ((tape 0).state (m + 1 + 1) x) := rfl
        have hex : ∃ u e' v, d.closing :: e :: x = u ++ d.closing :: e' :: v ∧ d.closing ∉ u :=
          ⟨[], e, x, rfl, List.not_mem_nil⟩
        simp only [Outcome.bind_ok, hb, hd, hfault, hex, and_true]
        simp
        omega
    · have hb' : d.escapedBy (some e) = false := by
        simpa [Delimiters.escapedBy, hescape] using Ne.symm he
      simp only [Outcome.bind_ok, he, false_and, if_false, Outcome.result_map_eq_error_iff]
      refine (ih hb').trans ?_
      -- the character before belongs to the part without closing delimiters
      refine and_congr_right fun _ => and_congr_right fun _ => ?_
      constructor
      · intro h
        obtain ⟨u, e', v, rfl, hu⟩ := h
        exact ⟨e :: u, e', v, rfl, by simpa [hu] using Ne.symm he⟩
      · intro h
        obtain ⟨u, e', v, hx, hu⟩ := h
        cases u with
        | nil =>
          cases hx
          exact absurd rfl he
        | cons e u =>
          cases hx
          exact ⟨u, e', v, rfl, fun h => hu (List.mem_cons_of_mem _ h)⟩

/-- A closing delimiter that is not doubled is not looked behind. -/
theorem result_contentFrom_ne {d : Delimiters} {before : Option Char} (hd : d.isDoubling = false) :
    (contentFrom d before ((tape n).state m x)).result ≠ .error (.overfull c k) := by
  induction x generalizing m before with
  | nil =>
    rw [contentFrom_eq, (tape n).next_nil]
    simp
  | cons e x ih =>
    rw [contentFrom_eq, (tape n).next_cons]
    simp only [Outcome.bind_ok, hd]
    split
    · simp
    · exact Outcome.result_map_eq_error_iff.not.2 ih

/-- With capacity for one character no delimited literal overflows. Without it one does if a
character is restored, or looked at behind a closing delimiter. -/
theorem overflow_delimited (d : Delimiters) :
    ((delimited d).run ((tape n).state m x)).result = .error (.overfull c k) ↔
      c = n ∧ n = 0 ∧ k = 1 ∧
        ((d.restore = true ∧ ∃ e rest, x = e :: rest ∧ e ≠ d.opening) ∨
          (d.isDoubling = true ∧
            ∃ u e v, x = d.opening :: (u ++ d.closing :: e :: v) ∧ d.closing ∉ u)) := by
  rcases Nat.eq_zero_or_pos n with rfl | hn
  case inr =>
    have hroom := Scan.Fits.delimited d hn (within_tape n m x)
    refine iff_of_false (hroom.result_ne c k) fun h => ?_
    exact absurd h.2.1 (Nat.ne_of_gt hn)
  cases x with
  | nil =>
    rw [delimited, Scan.run_bind, (tape 0).next_nil]
    cases hr : d.restore <;> simp [CharStream.handBack]
  | cons e x =>
    rw [delimited, Scan.run_bind, (tape 0).next_cons, Outcome.bind_ok]
    by_cases he : e = d.opening
    · -- the literal is there
      subst he
      rw [if_pos rfl]
      refine Scan.result_bind_pure.trans ?_
      cases hd : d.isDoubling with
      | false =>
        refine iff_of_false (result_contentFrom_ne hd) ?_
        simp
      | true =>
        refine (overflow_contentFrom hd rfl).trans ?_
        simp
    · have he' : some e ≠ some d.opening := fun h => he (Option.some.inj h)
      rw [if_neg he']
      cases hr : d.restore with
      | false => simp [he]
      | true =>
        -- another character, which is to be restored
        have hback : (CharStream.putBack [e]).run ((tape 0).state (m + 1) x) =
            .error (.overfull 0 1) ((tape 0).state (m + 1) x) := rfl
        simp only [if_true, CharStream.handBack, Scan.run_bind, hback, Outcome.bind_error,
          Outcome.result_error, Except.error.injEq, Fault.overfull.injEq]
        simp [he]
        omega

/-! ## Lines on a tape -/

theorem result_line_ne : (line.run ((tape n).state m x)).result ≠ .error (.overfull c k) := by
  have hroom : Scan.Fits 0 (line : Scan (Buffered Passage) (Option Text)) := .line
  exact (hroom (Nat.zero_le n) (within_tape n m x)).result_ne c k

/-- Behind a blank line the first full line is still to come. -/
theorem Text.firstFullLine_append {t rest : Text} {e : Char} (ht : ∀ c ∈ t, endsLine c = false)
    (he : endsLine e = true) :
    Text.firstFullLine (t ++ e :: rest) = if t.isBlank then rest.firstFullLine else some t := by
  rw [firstFullLine, List.splitOnP_append_cons_of_forall_mem ht e he, List.find?_cons]
  cases t.isBlank <;> rfl

theorem Text.firstFullLine_last {t : Text} (ht : ∀ c ∈ t, endsLine c = false) :
    t.firstFullLine = if t.isBlank then none else some t := by
  rw [firstFullLine, List.splitOnP_eq_singleton ht, List.find?_cons]
  cases t.isBlank <;> rfl

/-- The first full line is handed back with a line feed. The induction goes from one line to the
next. -/
theorem overflow_dropBlankLines :
    (dropBlankLines.run ((tape n).state m x)).result = .error (.overfull c k) ↔
      c = n ∧ n < k ∧ ∃ l, x.firstFullLine = some l ∧ k = l.length + 1 := by
  change (dropBlankLinesFrom ((tape n).state m x)).result = _ ↔ _
  -- handing a full line back, when it was read
  have hfull (l : Text) (m : Nat) (x : Text) :
      ((CharStream.putBack (l ++ ['\n'])).run ((tape n).state m x)).result =
        .error (.overfull c k) ↔ c = n ∧ n < k ∧ ∃ l', some l = some l' ∧ k = l'.length + 1 := by
    rw [overflow_putBack]
    simp
  induction hlen : x.length using Nat.strongRecOn generalizing m x with
  | ind i ih =>
    subst hlen
    obtain ⟨t, rest, rfl, ht, hrest⟩ := exists_line x
    rw [dropBlankLinesFrom_eq]
    cases rest with
    | cons e rest =>
      -- a line that is blank is left out, and the induction goes on behind its end
      have he : endsLine e = true := hrest e rfl
      rw [Tape.line_ended _ ht he, Text.firstFullLine_append ht he]
      simp only [Outcome.bind_ok]
      cases hblank : t.isBlank with
      | true => exact ih _ (by simp only [List.length_append, List.length_cons]; omega) rfl
      | false => exact hfull t _ _
    | nil =>
      -- the last line, which no character ends
      rw [List.append_nil, Text.firstFullLine_last ht]
      cases t with
      | nil =>
        rw [Tape.line_nil]
        simp [Text.isBlank]
      | cons d t =>
        rw [Tape.line_last _ ht (List.cons_ne_nil d t)]
        simp only [Outcome.bind_ok]
        cases hblank : Text.isBlank (d :: t) with
        | true =>
          -- the text is at its end
          rw [if_pos rfl, dropBlankLinesFrom_eq, Tape.line_nil]
          simp
        | false => exact hfull _ _ _

/-! ## Requests -/

/-- What a request does on a tape. -/
theorem overflow_tape {r : Request} (hr : r.isReading = true) :
    (r.perform.run ((tape n).state m x)).result = .error (.overfull c k) ↔
      c = n ∧ r.Overflows n x k := by
  cases r with
  | handBack c => cases hr
  | putBack t => cases hr
  | next =>
    have hroom : Scan.Fits 0 (Source.next : Scan (Buffered Passage) (Option Char)) := .next
    have hne := (hroom (Nat.zero_le n) (within_tape n m x)).result_ne c k
    refine iff_of_false (Scan.result_bind_pure.not.2 hne) ?_
    simp [Request.Overflows]
  | line =>
    refine iff_of_false (Scan.result_bind_pure.not.2 result_line_ne) ?_
    simp [Request.Overflows]
  | remainder =>
    refine Scan.result_bind_pure.trans ((overflow_span _).trans ?_)
    simp [Request.Overflows]
  | peek => exact Scan.result_bind_pure.trans overflow_peek
  | digits => exact Scan.result_bind_pure.trans (overflow_nonemptySpan _)
  | unsigned => exact Scan.result_bind_pure.trans overflow_unsigned
  | word =>
    refine Scan.result_bind_pure.trans ((overflow_nonemptySpan _).trans ?_)
    simp [Request.Overflows]
  | dropBlanks =>
    refine Scan.result_bind_pure.trans ?_
    exact Scan.result_bind_pure.trans (overflow_span _)
  | delimited d => exact Scan.result_bind_pure.trans (overflow_delimited d)
  | signed => exact Scan.result_bind_pure.trans overflow_signed
  | boolean => exact Scan.result_bind_pure.trans overflow_boolean
  | truth b => exact Scan.result_bind_pure.trans (overflow_truth b)
  | exactly t => exact Scan.result_bind_pure.trans (overflow_exactly t)
  | dropBlankLines => exact Scan.result_bind_pure.trans overflow_dropBlankLines

end Tape

/-- **Overflows are exact.** Take a buffered passage with no more pending than its capacity, and a
request that only reads. It overflows exactly if `Request.Overflows` says so of the capacity and the
stream; how the stream is divided, and so what is pending, does not matter. -/
theorem overflow_exact {b : Buffered Passage} (hb : b.pending.length ≤ b.capacity) (r : Request)
    (hr : r.isReading = true) (capacity requested : Nat) :
    (r.perform.run b).result = .error (.overfull capacity requested) ↔
      capacity = b.capacity ∧ r.Overflows b.capacity b.stream requested := by
  -- a tape is the division in which nothing is pending
  have hdiv : Redivided b.capacity b ((tape b.capacity).state b.offset b.stream) :=
    ⟨rfl, rfl, hb, Nat.zero_le _, rfl, rfl⟩
  have hobs := congrArg Prod.fst (perform_redivided hdiv hr).1
  rw [← overflow_tape hr (m := b.offset)]
  exact Eq.congr_left hobs

/-- A sign without digits, which was pending in a full buffer, needs room for two; and a line of two
characters behind a blank one needs room for three. -/
theorem overflow_exact_lone_sign :
    (let b : Buffered Passage := { source := ⟨['x']⟩, pending := ['+'], capacity := 1 }
     (Request.signed.perform.run b).result = .error (.overfull 1 2)) ∧
    (let b : Buffered Passage :=
       { source := ⟨['x', 'y', '\n']⟩, pending := [' ', '\r'], capacity := 2 }
     (Request.dropBlankLines.perform.run b).result = .error (.overfull 2 3)) := by
  constructor
  · intro b
    have h := overflow_exact (b := b) (by decide) .signed rfl 1 2
    exact h.2 ⟨rfl, .inr ⟨rfl, rfl, '+', 'x', [], rfl, .inl rfl, by decide⟩⟩
  · intro b
    have h := overflow_exact (b := b) (by decide) .dropBlankLines rfl 2 3
    exact h.2 ⟨rfl, by decide, ['x', 'y'], by decide +kernel, rfl⟩

end Rescan
