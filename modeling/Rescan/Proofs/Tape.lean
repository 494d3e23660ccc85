import Mathlib.Data.List.TakeWhile
import Rescan.Stream.Buffered
import Rescan.Stream.Stack
import Rescan.Source.Passage
import Rescan.Token.Exact
import Rescan.Token.Line
import Rescan.Token.Span

/-!
# Recognizers on a tape

On a tape nothing is left but a text, and how much of it was read before. A stack of characters is a
tape, and so is a buffered passage while nothing is pending. As long as a recognizer only reads,
what it does can be told from the text: where a span ends, where a fixed text differs, where a line
ends. What happens when it hands something back is for the stream to say.

## Main definitions

* `Tape`: states that are texts; `Stack.tape`, `Buffered.tape`.
* `Mismatch`: after how many characters it shows that a text does not come next.

## Main statements

* `Tape.span_all`, `Tape.span_stop`, `Tape.follow_all`, `Tape.follow_stop`, `Tape.line_ended`,
  `Tape.line_last`: the recognizers on a text that is given in pieces.
* `exists_span`, `exists_line`, `prefix_or_mismatch`: every text can be given in such pieces.
-/

namespace Rescan

open CharStream

variable {σ : Type}

/-! ## Tapes -/

/-- States that are texts to be read from the front: the one in which `n` characters were read
before and a text is left. -/
structure Tape (σ : Type) [Source σ] where
  /-- The state after `n` characters with a text left. -/
  state : Nat → Text → σ
  next_nil : ∀ n, Source.next.run (state n []) = .ok none (state n [])
  next_cons : ∀ n c x, Source.next.run (state n (c :: x)) = .ok (some c) (state (n + 1) x)

/-- A stack, which does not count. -/
def Stack.tape : Tape Stack where
  state _ x := ⟨x⟩
  next_nil _ := rfl
  next_cons _ _ _ := rfl

/-- A buffered passage with nothing pending. -/
def Buffered.tape (capacity : Nat) : Tape (Buffered Passage) where
  state n x := { source := ⟨x⟩, capacity, offset := n }
  next_nil _ := rfl
  next_cons _ _ _ := rfl

/-! ## Texts in pieces -/

/-- What is behind a span does not go on with it. -/
theorem eq_false_of_head?_dropWhile {p : Char → Bool} {x : Text} {c : Char}
    (hc : c ∈ (x.dropWhile p).head?) : p c = false := by
  have hnot := List.head?_dropWhile_not p x
  simpa [Option.mem_def.1 hc] using hnot

/-- A text begins with a span, which may be empty and may be all of it. -/
theorem exists_span (p : Char → Bool) (x : Text) :
    ∃ t rest, x = t ++ rest ∧ (∀ c ∈ t, p c = true) ∧ ∀ c ∈ rest.head?, p c = false :=
  ⟨x.takeWhile p, x.dropWhile p, List.takeWhile_append_dropWhile.symm,
    fun _ => List.mem_takeWhile_imp, fun _ => eq_false_of_head?_dropWhile⟩

/-- A text begins with a line, which may be empty and may be all of it. -/
theorem exists_line (x : Text) :
    ∃ l rest, x = l ++ rest ∧ (∀ c ∈ l, endsLine c = false) ∧
      ∀ c ∈ rest.head?, endsLine c = true := by
  simpa using exists_span (! endsLine ·) x

/-- The text `t` does not come next in `x`, and this shows after `k` characters of `x`. -/
inductive Mismatch : Text → Text → Nat → Prop where
  /-- The input ends within the text. -/
  | ended (x : Text) (e : Char) (w : Text) : Mismatch (x ++ e :: w) x x.length
  /-- The input goes on with another character. -/
  | differs (u : Text) {c e : Char} (v w : Text) (h : c ≠ e) :
      Mismatch (u ++ e :: w) (u ++ c :: v) (u.length + 1)

theorem Mismatch.cons {t x : Text} {k : Nat} (d : Char) (h : Mismatch t x k) :
    Mismatch (d :: t) (d :: x) (k + 1) := by
  cases h with
  | ended x e w => exact .ended (d :: x) e w
  | differs u v w h => exact .differs (d :: u) v w h

/-- A text comes next, or it shows that it does not; the induction is on the text. -/
theorem prefix_or_mismatch (t x : Text) : t <+: x ∨ ∃ k, Mismatch t x k := by
  induction t generalizing x with
  | nil => exact .inl (List.nil_prefix)
  | cons e t ih =>
    cases x with
    | nil => exact .inr ⟨0, .ended [] e t⟩
    | cons c x =>
      by_cases hc : c = e
      · subst hc
        rcases ih x with h | ⟨k, h⟩
        · exact .inl (List.cons_prefix_cons.2 ⟨rfl, h⟩)
        · exact .inr ⟨k + 1, h.cons c⟩
      · exact .inr ⟨1, .differs [] x t hc⟩

theorem Mismatch.absent {t x : Text} {k : Nat} (h : Mismatch t x k) : ¬ t <+: x := by
  cases h with
  | ended x e w =>
    intro h
    have := h.length_le
    simp only [List.length_append, List.length_cons] at this
    omega
  | differs u v w h =>
    intro hpre
    rw [List.prefix_append_right_inj, List.cons_prefix_cons] at hpre
    exact h hpre.1.symm

theorem Mismatch.le_length {t x : Text} {k : Nat} (h : Mismatch t x k) : k ≤ x.length := by
  cases h <;> simp

/-! ## Recognizers -/

namespace Tape

variable [CharStream σ] (T : Tape σ) {p : Char → Bool} {t x rest : Text} {c : Char}

/-- A span that goes on to the end of the text. -/
theorem span_all (ht : ∀ c ∈ t, p c = true) (n : Nat) :
    (span p).run (T.state n t) = .ok t (T.state (n + t.length) []) := by
  change spanFrom p (T.state n t) = _
  induction t generalizing n with
  | nil =>
    rw [spanFrom_eq, T.next_nil]
    rfl
  | cons d t ih =>
    rw [List.forall_mem_cons] at ht
    rw [spanFrom_eq, T.next_cons]
    simp [ht.1, ih ht.2, Nat.add_assoc, Nat.add_comm 1]

/-- A span that ends within the text: the character that ends it is handed back. -/
theorem span_stop (ht : ∀ c ∈ t, p c = true) (hc : p c = false) (n : Nat) :
    (span p).run (T.state n (t ++ c :: rest)) =
      ((putBack [c]).run (T.state (n + t.length + 1) rest)).map fun _ => t := by
  change spanFrom p (T.state n (t ++ c :: rest)) = _
  induction t generalizing n with
  | nil =>
    rw [List.nil_append, spanFrom_eq, T.next_cons]
    simp [hc]
  | cons d t ih =>
    rw [List.forall_mem_cons] at ht
    rw [List.cons_append, spanFrom_eq, T.next_cons]
    have hn : n + 1 + t.length + 1 = n + (d :: t).length + 1 := by
      rw [List.length_cons]
      omega
    simp only [Outcome.bind_ok, ht.1, if_true, ih ht.2, hn]
    cases (putBack [c]).run (T.state (n + (d :: t).length + 1) rest) <;> rfl

/-- A text that comes next is read as far as it goes. -/
theorem follow_all (t : Text) (n : Nat) :
    (follow t).run (T.state n (t ++ rest)) = .ok t (T.state (n + t.length) rest) := by
  induction t generalizing n with
  | nil => rfl
  | cons d t ih => simp [follow, T.next_cons, ih, Nat.add_assoc, Nat.add_comm 1]

/-- A text that does not come next is read until this shows. -/
theorem follow_stop {k : Nat} (h : Mismatch t x k) (n : Nat) :
    (follow t).run (T.state n x) = .ok (x.take k) (T.state (n + k) (x.drop k)) := by
  cases h with
  | ended x e w =>
    rw [List.take_length, List.drop_length]
    induction x generalizing n with
    | nil => simp [follow, T.next_nil]
    | cons d x ih => simp [follow, T.next_cons, ih, Nat.add_assoc, Nat.add_comm 1]
  | @differs u c e v w h =>
    have htake : (u ++ c :: v).take (u.length + 1) = u ++ [c] := by
      rw [List.take_append, List.take_of_length_le (Nat.le_succ _)]
      simp
    have hdrop : (u ++ c :: v).drop (u.length + 1) = v := by simp [List.drop_append]
    rw [htake, hdrop]
    clear htake hdrop
    induction u generalizing n with
    | nil => simp [follow, T.next_cons, h]
    | cons d u ih => simp [follow, T.next_cons, ih, Nat.add_assoc, Nat.add_comm 1]

end Tape

/-- There is only one number of characters after which it shows that a text does not come next,
since that many are read for it. -/
theorem Mismatch.unique {t x : Text} {j k : Nat} (hj : Mismatch t x j) (hk : Mismatch t x k) :
    j = k := by
  have hread := Stack.tape.follow_stop hj 0
  rw [Stack.tape.follow_stop hk 0, Outcome.ok.injEq] at hread
  have hlen := congrArg List.length hread.1
  rw [List.length_take_of_le hk.le_length, List.length_take_of_le hj.le_length] at hlen
  exact hlen.symm

namespace Tape

variable [CharStream σ] (T : Tape σ) {t rest : Text} {c : Char}

/-- A line that is ended by a character. -/
theorem lineFrom_ended (ht : ∀ c ∈ t, endsLine c = false) (hc : endsLine c = true) (n : Nat) :
    lineFrom (T.state n (t ++ c :: rest)) = .ok t (T.state (n + t.length + 1) rest) := by
  induction t generalizing n with
  | nil =>
    rw [List.nil_append, lineFrom_eq, T.next_cons]
    simp [hc]
  | cons d t ih =>
    rw [List.forall_mem_cons] at ht
    rw [List.cons_append, lineFrom_eq, T.next_cons]
    simp [ht.1, ih ht.2, Nat.add_assoc, Nat.add_comm 1]

/-- A line that is ended by the end of the text. -/
theorem lineFrom_last (ht : ∀ c ∈ t, endsLine c = false) (n : Nat) :
    lineFrom (T.state n t) = .ok t (T.state (n + t.length) []) := by
  induction t generalizing n with
  | nil =>
    rw [lineFrom_eq, T.next_nil]
    rfl
  | cons d t ih =>
    rw [List.forall_mem_cons] at ht
    rw [lineFrom_eq, T.next_cons]
    simp [ht.1, ih ht.2, Nat.add_assoc, Nat.add_comm 1]

/-- At the end of the text there is no line. -/
theorem line_nil (n : Nat) : line.run (T.state n []) = .ok none (T.state n []) := by
  simp [line, T.next_nil]

theorem line_ended (ht : ∀ c ∈ t, endsLine c = false) (hc : endsLine c = true) (n : Nat) :
    line.run (T.state n (t ++ c :: rest)) = .ok (some t) (T.state (n + t.length + 1) rest) := by
  cases t with
  | nil => simp [line, T.next_cons, hc]
  | cons d t =>
    rw [List.forall_mem_cons] at ht
    simp [line, T.next_cons, ht.1, T.lineFrom_ended ht.2 hc, Nat.add_assoc, Nat.add_comm 1]

theorem line_last (ht : ∀ c ∈ t, endsLine c = false) (hne : t ≠ []) (n : Nat) :
    line.run (T.state n t) = .ok (some t) (T.state (n + t.length) []) := by
  cases t with
  | nil => exact absurd rfl hne
  | cons d t =>
    rw [List.forall_mem_cons] at ht
    simp [line, T.next_cons, ht.1, T.lineFrom_last ht.2, Nat.add_assoc, Nat.add_comm 1]

end Tape

end Rescan
