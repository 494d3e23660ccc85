import Rescan.Proofs.Evaluation
import Rescan.Proofs.Plain

/-!
# The lines of a text

A text is cut into lines at every character that ends one. If it ends with such a character, no line
begins behind it; but an empty line in the middle is a line. This is what is read, one line after the
other: there is a line exactly as long as there is a character left. Since a line hands nothing back,
no room is needed.

## Main definitions

* `Scan.UntilAbsent`: an action, performed again and again until it finds nothing.
* `Text.lines`, `Text.lineStart`: the lines of a text, and the places where they begin.

## Main statements

* `Scan.UntilAbsent.unique`: what is found in this way is determined.
* `Text.line_induction`: induction on the lines of a text.
* `lines_until_end`: reading line after line cuts the text.
-/

namespace Rescan

open Buffered CharStream

/-! ## Until nothing is there -/

/-- The action is performed again and again, from the first state on, until it finds nothing and ends
in the last state. What it answered before that is listed, with the state behind each answer. -/
inductive Scan.UntilAbsent {σ α : Type} (x : Scan σ (Option α)) : σ → List (α × σ) → σ → Prop where
  /-- There is nothing, or nothing any more. -/
  | absent {s s' : σ} : x.run s = .ok none s' → UntilAbsent x s [] s'
  /-- There is something, and the action is performed again. -/
  | present {s s₁ s' : σ} {a : α} {rest : List (α × σ)} :
      x.run s = .ok (some a) s₁ → UntilAbsent x s₁ rest s' → UntilAbsent x s ((a, s₁) :: rest) s'

/-- What is found until nothing is there is determined by where it begins. -/
theorem Scan.UntilAbsent.unique {σ α : Type} {x : Scan σ (Option α)} {s s₁ s₂ : σ}
    {visited₁ visited₂ : List (α × σ)} (h₁ : x.UntilAbsent s visited₁ s₁)
    (h₂ : x.UntilAbsent s visited₂ s₂) : visited₁ = visited₂ ∧ s₁ = s₂ := by
  induction h₁ generalizing visited₂ with
  | absent hrun =>
    cases h₂ with
    | absent hrun' =>
      cases hrun.symm.trans hrun'
      exact ⟨rfl, rfl⟩
    | present hrun' => cases hrun.symm.trans hrun'
  | present hrun hrest ih =>
    cases h₂ with
    | absent hrun' => cases hrun.symm.trans hrun'
    | present hrun' hrest' =>
      cases hrun.symm.trans hrun'
      obtain ⟨rfl, rfl⟩ := ih hrest'
      exact ⟨rfl, rfl⟩

/-! ## Lines -/

namespace Text

/-- The pieces of a text between the characters that end a line, without an empty one at the end. -/
def lines (x : Text) : List Text :=
  let pieces := x.splitOnP endsLine
  if pieces.getLast? = some [] then pieces.dropLast else pieces

/-- The number of characters before line number `k`, counted from zero: those of the lines before it,
and those that end them. If there are not so many lines, this is the length of the text. -/
def lineStart (x : Text) (k : Nat) : Nat :=
  (x.lines.take k).flatten.length + min k (x.countP endsLine)

variable {t rest : Text} {e : Char}

@[simp] theorem lines_nil : lines [] = [] := rfl

/-- A line that is ended by a character is followed by the lines behind that character. -/
theorem lines_ended (ht : ∀ c ∈ t, endsLine c = false) (he : endsLine e = true) :
    lines (t ++ e :: rest) = t :: lines rest := by
  obtain ⟨l, ls, hsplit⟩ := List.exists_cons_of_ne_nil (List.splitOnP_ne_nil endsLine rest)
  simp only [lines, List.splitOnP_append_cons_of_forall_mem ht e he, hsplit,
    List.getLast?_cons_cons, List.dropLast_cons_cons]
  split <;> rfl

theorem lines_last (ht : ∀ c ∈ t, endsLine c = false) (hne : t ≠ []) : lines t = [t] := by
  simp [lines, List.splitOnP_eq_singleton ht, hne]

@[simp] theorem lineStart_zero (x : Text) : x.lineStart 0 = 0 := by
  simp [lineStart]

theorem lineStart_ended (ht : ∀ c ∈ t, endsLine c = false) (he : endsLine e = true) (k : Nat) :
    lineStart (t ++ e :: rest) (k + 1) = t.length + 1 + rest.lineStart k := by
  have hnone : t.countP endsLine = 0 := List.countP_eq_zero.2 (by simpa using ht)
  have hcount : (t ++ e :: rest).countP endsLine = rest.countP endsLine + 1 := by
    simp [List.countP_append, hnone, he]
  simp only [lineStart, lines_ended ht he, hcount, List.take_succ_cons, List.flatten_cons,
    List.length_append]
  omega

theorem lineStart_last (ht : ∀ c ∈ t, endsLine c = false) (hne : t ≠ []) (k : Nat) :
    t.lineStart (k + 1) = t.length := by
  have hnone : t.countP endsLine = 0 := List.countP_eq_zero.2 (by simpa using ht)
  simp [lineStart, lines_last ht hne, hnone]

/-- Induction on the lines of a text: it is empty, or a last line that nothing ends, or a line that is
ended by a character and followed by a text. -/
@[elab_as_elim]
theorem line_induction {P : Text → Prop} (nil : P [])
    (last : ∀ t : Text, (∀ c ∈ t, endsLine c = false) → t ≠ [] → P t)
    (ended : ∀ (t : Text) e rest, (∀ c ∈ t, endsLine c = false) → endsLine e = true → P rest →
      P (t ++ e :: rest)) (x : Text) : P x := by
  induction hlen : x.length using Nat.strongRecOn generalizing x with
  | ind n ih =>
    subst hlen
    obtain ⟨t, rest, rfl, ht, hrest⟩ := exists_line x
    cases rest with
    | cons e rest =>
      have hlt : rest.length < (t ++ e :: rest).length := by
        simp
        omega
      exact ended t e rest ht (hrest e rfl) (ih _ hlt rest rfl)
    | nil =>
      rw [List.append_nil]
      by_cases hne : t = []
      · rwa [hne]
      · exact last t ht hne

/-- The lines before the end of a line and those behind it are the lines of the whole. -/
theorem lines_append_ended (he : endsLine e = true) (x y : Text) :
    lines (x ++ e :: y) = lines (x ++ [e]) ++ lines y := by
  have hempty (y : Text) : lines (e :: y) = [] :: lines y := lines_ended (t := []) (by simp) he
  induction x using line_induction with
  | nil => simp [hempty]
  | last t ht hne => simp [lines_ended ht he]
  | ended t e' rest ht he' ih => simp [lines_ended ht he', ih]

/-- There is no line between the last end and the end of the text. -/
example : lines ['a', '\r', '\n', 'b', '\n'] = [['a'], [], ['b']] := by decide

end Text

open Text

/-! ## Reading lines -/

namespace Buffered

variable {b : Buffered Passage}

theorem isOverfull_lineFrom (b : Buffered Passage) : (lineFrom b).isOverfull = false := by
  fun_induction lineFrom b with
  | case1 => rfl
  | case2 b c b' hnext hc ih => rwa [Outcome.isOverfull_map]
  | case3 => rfl
  | case4 b e b' hnext =>
    -- a passage does not fail
    change Buffered.next b = _ at hnext
    rw [next_eq_of_stream] at hnext
    split at hnext <;> cases hnext

/-- However little room there is, a line does not overflow. -/
theorem isOverfull_line (b : Buffered Passage) : (line.run b).isOverfull = false := by
  have hnext : Source.next.run b = Buffered.next b := rfl
  rw [line, Scan.run_bind, hnext, next_eq_of_stream]
  split
  · rfl
  · rw [Outcome.bind_ok]
    dsimp only
    split
    · rfl
    · simp [isOverfull_lineFrom]

/-- A line is read as it is on the stack, whatever the capacity. -/
theorem line_of_stack {l : Option Text} {s : Stack}
    (h : line.run (⟨b.stream⟩ : Stack) = .ok l s) :
    ∃ b', line.run b = .ok l b' ∧ b'.stream = s.chars ∧
      b'.offset + b'.stream.length = b.offset + b.stream.length := by
  have htracks := Simulation.tracks_line (S := evaluating b)
  have hagree := agree_stack_of_isOverfull_eq htracks (isOverfull_line b)
  obtain ⟨b', hrun, hs, v, hv⟩ := hagree.exists_of_ok_right h
  exact ⟨b', hrun, hs.symm, hv.offset_add_length⟩

/-- Where there is no line there is nothing left. -/
theorem line_eq_none_iff : (∃ b', line.run b = .ok none b') ↔ b.stream = [] := by
  constructor
  · intro h
    obtain ⟨b', hrun⟩ := h
    obtain ⟨c, b₁, hnext, hrun⟩ := Scan.run_bind_eq_ok_iff.1 hrun
    change Buffered.next b = _ at hnext
    rw [next_eq_of_stream] at hnext
    cases hs : b.stream with
    | nil => rfl
    | cons d rest =>
      -- a character begins a line, which may be empty
      rw [hs] at hnext
      cases hnext
      dsimp only at hrun
      split at hrun
      · cases hrun
      · obtain ⟨_, _, hsome⟩ := Scan.run_bind_pure_eq_ok_iff.1 hrun
        cases hsome
  · intro hs
    have hstack : line.run (⟨b.stream⟩ : Stack) = .ok none ⟨[]⟩ := by
      rw [hs]
      exact Stack.tape.line_nil 0
    obtain ⟨b', hrun, -, -⟩ := line_of_stack hstack
    exact ⟨b', hrun⟩

/-- One line after the other, with the places behind them. The induction is on the lines of the
stream. -/
theorem exists_lines_until_absent (x : Text) (hx : b.stream = x) :
    ∃ visited b', line.UntilAbsent b visited b' ∧
      visited.map (fun v => (v.1, v.2.offset)) =
        x.lines.mapIdx (fun j l => (l, b.offset + x.lineStart (j + 1))) ∧
      b'.stream = [] ∧ b'.offset = b.offset + x.length := by
  induction x using line_induction generalizing b with
  | nil =>
    have hstack : line.run (⟨b.stream⟩ : Stack) = .ok none ⟨[]⟩ := by
      rw [hx]
      exact Stack.tape.line_nil 0
    obtain ⟨b', hrun, hs, hcount⟩ := line_of_stack hstack
    rw [hs, hx] at hcount
    exact ⟨[], b', .absent hrun, rfl, hs, hcount⟩
  | last t ht hne =>
    -- the last line, behind which there is nothing
    have hstack : line.run (⟨b.stream⟩ : Stack) = .ok (some t) ⟨[]⟩ := by
      rw [hx]
      exact Stack.tape.line_last ht hne 0
    obtain ⟨b₁, hrun, hs₁, hcount₁⟩ := line_of_stack hstack
    have hend : line.run (⟨b₁.stream⟩ : Stack) = .ok none ⟨[]⟩ := by
      rw [hs₁]
      exact Stack.tape.line_nil 0
    obtain ⟨b', hrun', hs', hcount'⟩ := line_of_stack hend
    rw [hs₁, hx] at hcount₁
    rw [hs', hs₁] at hcount'
    refine ⟨[(t, b₁)], b', .present hrun (.absent hrun'), ?_, hs', hcount'.trans hcount₁⟩
    simpa [lines_last ht hne, lineStart_last ht hne] using hcount₁
  | ended t e rest ht he ih =>
    have hstack : line.run (⟨b.stream⟩ : Stack) = .ok (some t) ⟨rest⟩ := by
      rw [hx]
      exact Stack.line_run ht he
    obtain ⟨b₁, hrun, hs₁, hcount₁⟩ := line_of_stack hstack
    obtain ⟨visited, b', hloop, hvisited, hs', hoffset⟩ := ih hs₁
    have hb₁ : b₁.offset = b.offset + (t.length + 1) := by
      rw [hs₁, hx] at hcount₁
      simp only [List.length_append, List.length_cons] at hcount₁
      omega
    refine ⟨(t, b₁) :: visited, b', .present hrun hloop, ?_, hs', ?_⟩
    · simp [lines_ended ht he, lineStart_ended ht he, hvisited, hb₁, Nat.add_assoc]
    · simp only [hoffset, hb₁, List.length_append, List.length_cons]
      omega

end Buffered

/-- **Reading line after line cuts the text.** Take a buffered passage, of any capacity and with
anything pending, and read lines until there is none. They are the lines of its stream, in order; behind
each of them the counter stands where the next one begins; and in the end all of the stream has been
consumed. A carriage return and a line feed end two lines, of which the second is empty. And there is no
line exactly at the end of the input. -/
theorem lines_until_end (b : Buffered Passage) :
    let x := b.stream
    (∃ visited b', line.UntilAbsent b visited b' ∧
      visited.map (fun v => (v.1, v.2.offset)) =
        x.lines.mapIdx (fun j l => (l, b.offset + x.lineStart (j + 1))) ∧
      b'.stream = [] ∧ b'.offset = b.offset + x.length) ∧
    (∀ u v : Text, (u ++ '\r' :: '\n' :: v).lines = (u ++ ['\r']).lines ++ [] :: v.lines) ∧
    ((∃ b', line.run b = .ok none b') ↔ x = []) := by
  intro x
  refine ⟨exists_lines_until_absent x rfl, fun u v => ?_, line_eq_none_iff⟩
  have hempty : lines ('\n' :: v) = [] :: v.lines := lines_ended (t := []) (by simp) rfl
  rw [lines_append_ended rfl, hempty]

end Rescan
