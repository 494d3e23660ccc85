import Rescan.Proofs.Division
import Rescan.Proofs.Lines

/-!
# Leaving out blank lines

Blank lines are read as lines are, and the first line that is not blank is handed back with a line
feed, whatever ended it before. So the lines that are left are the lines of the text from that one on.
The counter has to account for the character that ended the line: if there was none, one character more
is handed back than was read for it.

## Main definitions

* `Text.leadingBlanks`, `Text.behindBlanks`: the blank lines at the front of a text, and what is
  behind them.

## Main statements

* `Text.lines_behindBlanks`: behind the blank lines there are the other lines.
* `Tape.dropBlankLinesFrom_behindBlanks`: blank lines at the front can be left out before.
* `dropBlankLines_exact`: what is left of the stream, where the counter stands, and that there is
  nothing more to leave out.
-/

namespace Rescan

open Buffered CharStream

/-! ## The blank lines at the front of a text -/

namespace Text

/-- The number of blank lines before the first line that is not blank. -/
def leadingBlanks (x : Text) : Nat :=
  (x.lines.takeWhile isBlank).length

/-- The text behind the blank lines at its front. -/
def behindBlanks (x : Text) : Text :=
  x.drop (x.lineStart x.leadingBlanks)

variable {t rest x l : Text} {ls : List Text} {e : Char}

/-- The empty text is blank. -/
theorem ne_nil_of_isBlank (h : t.isBlank = false) : t ≠ [] := by
  intro hnil
  simp [hnil, isBlank] at h

theorem leadingBlanks_last (ht : ∀ c ∈ t, endsLine c = false) (hne : t ≠ []) :
    t.leadingBlanks = if t.isBlank then 1 else 0 := by
  rw [leadingBlanks, lines_last ht hne, List.takeWhile_cons]
  split <;> rfl

theorem leadingBlanks_ended (ht : ∀ c ∈ t, endsLine c = false) (he : endsLine e = true) :
    leadingBlanks (t ++ e :: rest) = if t.isBlank then rest.leadingBlanks + 1 else 0 := by
  rw [leadingBlanks, lines_ended ht he, List.takeWhile_cons]
  split <;> rfl

theorem behindBlanks_eq_self (h : x.leadingBlanks = 0) : x.behindBlanks = x := by
  simp [behindBlanks, h]

/-- A blank line and what ends it do not matter for what is behind it. -/
theorem behindBlanks_ended (ht : ∀ c ∈ t, endsLine c = false) (he : endsLine e = true)
    (hblank : t.isBlank = true) : behindBlanks (t ++ e :: rest) = rest.behindBlanks := by
  rw [behindBlanks, leadingBlanks_ended ht he, if_pos hblank, lineStart_ended ht he, ← List.drop_drop]
  simp [behindBlanks]

/-- Behind the blank lines there are the lines from the first one that is not blank. -/
theorem lines_behindBlanks (x : Text) : x.behindBlanks.lines = x.lines.dropWhile isBlank := by
  induction x using line_induction with
  | nil => rfl
  | last t ht hne =>
    have hleading := leadingBlanks_last ht hne
    cases hblank : t.isBlank with
    | true => simp [behindBlanks, hleading, hblank, lineStart_last ht hne, lines_last ht hne]
    | false => simp [behindBlanks, hleading, hblank, lines_last ht hne]
  | ended t e rest ht he ih =>
    have hleading : leadingBlanks (t ++ e :: rest) = _ := leadingBlanks_ended ht he
    cases hblank : t.isBlank with
    | true => simp [behindBlanks_ended ht he hblank, lines_ended ht he, hblank, ih]
    | false => simp [behindBlanks, hleading, hblank, lines_ended ht he]

/-- If all lines are blank nothing is behind them. -/
theorem behindBlanks_eq_nil (h : x.lines.dropWhile isBlank = []) : x.behindBlanks = [] := by
  rw [← lines_behindBlanks] at h
  generalize x.behindBlanks = y at h ⊢
  induction y using line_induction with
  | nil => rfl
  | last t ht hne => simp [lines_last ht hne] at h
  | ended t e rest ht he => simp [lines_ended ht he] at h

/-- Otherwise there is the first line that is not blank, and then what ends it, if anything does. -/
theorem behindBlanks_eq_append (h : x.lines.dropWhile isBlank = l :: ls) :
    ∃ rest, x.behindBlanks = l ++ rest ∧ (∀ c ∈ l, endsLine c = false) ∧
      (∀ c ∈ rest.head?, endsLine c = true) ∧ l.isBlank = false := by
  have hfull : l.isBlank = false := by
    have hnot := List.head?_dropWhile_not isBlank x.lines
    simpa [h] using hnot
  rw [← lines_behindBlanks] at h
  generalize x.behindBlanks = y at h ⊢
  induction y using line_induction with
  | nil => simp at h
  | last t ht hne =>
    rw [lines_last ht hne] at h
    cases h
    exact ⟨[], by simp, ht, by simp, hfull⟩
  | ended t e rest ht he =>
    rw [lines_ended ht he] at h
    cases h
    exact ⟨e :: rest, rfl, ht, by simpa using he, hfull⟩

/-- The lines are the same if the first one is ended by a line feed, whatever ended it before. -/
theorem lines_lineFeed (hl : ∀ c ∈ l, endsLine c = false) (hrest : ∀ c ∈ rest.head?, endsLine c = true)
    (hfull : l.isBlank = false) : lines (l ++ '\n' :: rest.tail) = lines (l ++ rest) := by
  rw [lines_ended hl rfl]
  cases rest with
  | nil => simp [lines_last hl (ne_nil_of_isBlank hfull)]
  | cons e rest => rw [lines_ended hl (hrest e rfl), List.tail_cons]

end Text

open Text

/-! ## Leaving them out -/

namespace Tape

variable {σ : Type} [CharStream σ] (T : Tape σ) {l rest : Text}

/-- The line at the front of a text, whatever ends it. -/
theorem line_run (hl : ∀ c ∈ l, endsLine c = false) (hrest : ∀ c ∈ rest.head?, endsLine c = true)
    (hne : l ≠ []) (n : Nat) :
    line.run (T.state n (l ++ rest)) =
      .ok (some l) (T.state (n + l.length + (rest.take 1).length) rest.tail) := by
  cases rest with
  | nil => simpa using T.line_last hl hne n
  | cons e rest => exact T.line_ended hl (hrest e rfl) n

/-- It does not matter whether the blank lines at the front are still there. The induction is on the
lines of the text. -/
theorem dropBlankLinesFrom_behindBlanks (n : Nat) (x : Text) :
    dropBlankLinesFrom (T.state n x) =
      dropBlankLinesFrom (T.state (n + x.lineStart x.leadingBlanks) x.behindBlanks) := by
  induction x using line_induction generalizing n with
  | nil => rfl
  | last t ht hne =>
    have hleading := leadingBlanks_last ht hne
    cases hblank : t.isBlank with
    | true =>
      rw [dropBlankLinesFrom_eq, T.line_last ht hne]
      simp [behindBlanks, hleading, hblank, lineStart_last ht hne]
    | false => simp [behindBlanks, hleading, hblank]
  | ended t e rest ht he ih =>
    have hleading : leadingBlanks (t ++ e :: rest) = _ := leadingBlanks_ended ht he
    cases hblank : t.isBlank with
    | true =>
      rw [dropBlankLinesFrom_eq, T.line_ended ht he, behindBlanks_ended ht he hblank]
      simp [hleading, hblank, lineStart_ended ht he, ih, Nat.add_assoc]
    | false => simp [behindBlanks, hleading, hblank]

end Tape

namespace Buffered

variable {b : Buffered Passage} {n m : Nat} {x l rest : Text}

/-- If all lines are blank, all of the text is left out. -/
theorem dropBlankLines_tape_nil (h : x.lines.dropWhile Text.isBlank = []) :
    dropBlankLines.run ((tape n).state m x) =
      .ok () ((tape n).state (m + x.lineStart x.leadingBlanks) []) := by
  change dropBlankLinesFrom _ = _
  rw [Tape.dropBlankLinesFrom_behindBlanks, behindBlanks_eq_nil h, dropBlankLinesFrom_eq, Tape.line_nil]
  rfl

/-- If there is room, the first line that is not blank ends up in the buffer, with a line feed. One
character more is handed back than was read for it, unless a character ended it. -/
theorem dropBlankLines_tape_full (hbehind : x.behindBlanks = l ++ rest)
    (hl : ∀ c ∈ l, endsLine c = false) (hrest : ∀ c ∈ rest.head?, endsLine c = true)
    (hfull : l.isBlank = false) (hroom : l.length + 1 ≤ n) :
    dropBlankLines.run ((tape n).state m x) = .ok ()
      { source := ⟨rest.tail⟩
        pending := l ++ ['\n']
        capacity := n
        offset := m + x.lineStart x.leadingBlanks + (rest.take 1).length - 1 } := by
  change dropBlankLinesFrom _ = _
  rw [Tape.dropBlankLinesFrom_behindBlanks, hbehind, dropBlankLinesFrom_eq,
    Tape.line_run _ hl hrest (ne_nil_of_isBlank hfull), Outcome.bind_ok]
  simp only [hfull, Bool.false_eq_true, if_false]
  refine putBack_eq_ok_iff.2 ⟨?_, ?_⟩
  · simpa [tape] using hroom
  · simp [tape]
    omega

/-- What is left out on a tape is left out in every division of the stream. -/
theorem dropBlankLines_of_tape {t' : Buffered Passage} (hb : b.Within n)
    (h : dropBlankLines.run ((tape n).state b.offset b.stream) = .ok () t') :
    ∃ b', dropBlankLines.run b = .ok () b' ∧ b'.Within n ∧ b'.stream = t'.stream ∧
      b'.offset = t'.offset := by
  have hdiv : Redivided n b ((tape n).state b.offset b.stream) :=
    ⟨hb.capacity_eq, rfl, hb.pending_le, Nat.zero_le _, rfl, rfl⟩
  have hstart : (redividing n).rel [] b ((tape n).state b.offset b.stream) :=
    ⟨hdiv, .inr ⟨hb.pending_le, Nat.zero_le _⟩⟩
  have hagree := (redividing_loose n).tracks_dropBlankLines.agree hstart
  obtain ⟨b', hrun, v, -, hdiv', -⟩ := hagree.exists_of_ok_right h
  exact ⟨b', hrun, ⟨hdiv'.capacity₁, hdiv'.pending₁⟩, hdiv'.stream, hdiv'.offset⟩

/-- A stream that begins with a line that is not blank and a line feed stays as it is. -/
theorem dropBlankLines_again (hb : b.Within n) (hs : b.stream = l ++ '\n' :: rest)
    (hl : ∀ c ∈ l, endsLine c = false) (hfull : l.isBlank = false) (hroom : l.length + 1 ≤ n) :
    ∃ b', dropBlankLines.run b = .ok () b' ∧ b'.stream = b.stream ∧ b'.offset = b.offset := by
  have he : endsLine '\n' = true := rfl
  have hleading : b.stream.leadingBlanks = 0 := by
    rw [hs, leadingBlanks_ended hl he, hfull]
    rfl
  have hbehind : b.stream.behindBlanks = l ++ '\n' :: rest := by
    rw [behindBlanks_eq_self hleading, hs]
  obtain ⟨b', hrun, -, hs', hoffset⟩ :=
    dropBlankLines_of_tape hb (dropBlankLines_tape_full hbehind hl (by simpa using he) hfull hroom)
  refine ⟨b', hrun, ?_, ?_⟩
  · rw [hs', stream_passage, hs]
    simp
  · rw [hoffset, hleading]
    simp

end Buffered

/-- **Blank lines are left out exactly.** Take a buffered passage with no more pending than its
capacity, and room for the first line that is not blank and a line feed. The lines that are left are
those from that line on. If there is none, nothing is left, and the counter has passed all of it.
Otherwise that line is left, then a line feed, then what came behind the character that ended the
line; the counter stands behind the blank lines, or one character before that, if nothing ended the
line. Leaving out blank lines once more changes neither. -/
theorem dropBlankLines_exact {b : Buffered Passage} (hb : b.pending.length ≤ b.capacity)
    (hroom : ∀ l ∈ (b.stream.lines.dropWhile Text.isBlank).head?, l.length + 1 ≤ b.capacity) :
    let x := b.stream
    let skipped := x.lineStart x.leadingBlanks
    ∃ b' b'', dropBlankLines.run b = .ok () b' ∧ dropBlankLines.run b' = .ok () b'' ∧
      b'.stream.lines = x.lines.dropWhile Text.isBlank ∧
      (match x.lines.dropWhile Text.isBlank with
        | [] => b'.stream = [] ∧ b'.offset = b.offset + skipped
        | l :: _ => ∃ rest, x.drop skipped = l ++ rest ∧ (∀ c ∈ rest.head?, endsLine c = true) ∧
            b'.stream = l ++ '\n' :: rest.tail ∧
            b'.offset = if rest = [] then b.offset + skipped - 1 else b.offset + skipped) ∧
      b''.stream = b'.stream ∧ b''.offset = b'.offset := by
  intro x skipped
  have hwithin : b.Within b.capacity := ⟨rfl, hb⟩
  cases hlines : x.lines.dropWhile Text.isBlank with
  | nil =>
    obtain ⟨b', hrun, hb', hs, hoffset⟩ :=
      dropBlankLines_of_tape hwithin (dropBlankLines_tape_nil hlines)
    -- there is nothing left, and so nothing to leave out
    change b'.stream = [] at hs
    have hagain : b'.stream.lines.dropWhile Text.isBlank = [] := by simp [hs]
    obtain ⟨b'', hrun', -, hs', hoffset'⟩ :=
      dropBlankLines_of_tape hb' (dropBlankLines_tape_nil hagain)
    refine ⟨b', b'', hrun, hrun', by simp [hs], ⟨hs, hoffset⟩, hs'.trans hs.symm, ?_⟩
    rw [hoffset', hs]
    rfl
  | cons l ls =>
    obtain ⟨rest, hbehind, hl, hrest, hfull⟩ := behindBlanks_eq_append hlines
    have hroom' : l.length + 1 ≤ b.capacity := hroom l (by rw [hlines]; rfl)
    obtain ⟨b', hrun, hb', hs, hoffset⟩ :=
      dropBlankLines_of_tape hwithin (dropBlankLines_tape_full hbehind hl hrest hfull hroom')
    have hs : b'.stream = l ++ '\n' :: rest.tail := by
      rw [hs, stream_passage]
      simp
    -- the line is the first one again, and this time a character ends it
    obtain ⟨b'', hrun', hs', hoffset'⟩ := dropBlankLines_again hb' hs hl hfull hroom'
    refine ⟨b', b'', hrun, hrun', ?_, ⟨rest, hbehind, hrest, hs, ?_⟩, hs', hoffset'⟩
    · rw [hs, lines_lineFeed hl hrest hfull, ← hbehind, lines_behindBlanks, hlines]
    · rw [hoffset]
      cases rest <;> rfl

/-- Behind two blank lines, a last line that begins with a blank and that nothing ends. -/
theorem dropBlankLines_exact_unended :
    let b : Buffered Passage :=
      { source := ⟨['\n', '\t', 'x']⟩, pending := [' ', '\r'], capacity := 3 }
    ∃ b' b'', dropBlankLines.run b = .ok () b' ∧ dropBlankLines.run b' = .ok () b'' ∧
      b'.stream = ['\t', 'x', '\n'] ∧ b'.offset = 2 ∧
      b''.stream = b'.stream ∧ b''.offset = b'.offset := by
  intro b
  have hlines : b.stream.lines.dropWhile Text.isBlank = [['\t', 'x']] := by decide +kernel
  obtain ⟨b', b'', hrun, hrun', -, hfull, hagain⟩ := dropBlankLines_exact (b := b) (by decide) (by
    rw [hlines]
    simp [b])
  rw [hlines] at hfull
  obtain ⟨rest, hdrop, -, hs, hoffset⟩ := hfull
  have hskipped : b.stream.lineStart b.stream.leadingBlanks = 3 := by decide +kernel
  rw [hskipped] at hdrop hoffset
  have hrest : rest = [] := by simpa [b, stream_passage] using hdrop.symm
  subst hrest
  exact ⟨b', b'', hrun, hrun', hs, hoffset, hagain⟩

end Rescan
