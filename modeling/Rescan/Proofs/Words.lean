import Rescan.Proofs.Lines

/-!
# The words of a text

The words of a text are its longest parts without a blank. To read one after the other, the blanks
before each of them have to be left out. Leaving out blanks hands back the character that begins a word,
and reading a word hands back the blank that ends it, so there has to be room for one character; and
none of those that go back and forth gets lost.

## Main definitions

* `Text.words`: the words of a text.
* `nextWord`: the next word, behind blanks.

## Main statements

* `Text.word_induction`: induction on the words of a text.
* `words_until_end`: reading word after word finds the words of a text.
-/

namespace Rescan

open Buffered CharStream

/-! ## Words -/

namespace Text

/-- The pieces of a text between its blanks, without the empty ones. -/
def words (x : Text) : List Text :=
  (x.splitOnP Rescan.isBlank).filter (! ·.isEmpty)

variable {g t rest : Text} {c : Char}

@[simp] theorem words_nil : words [] = [] := by
  simp [words]

/-- A blank ends the words before it. -/
theorem words_append_cons (hc : Rescan.isBlank c = true) (x y : Text) :
    words (x ++ c :: y) = words x ++ words y := by
  simp [words, List.splitOnP_append_cons x y hc]

theorem words_blanks_append (hg : ∀ c ∈ g, Rescan.isBlank c = true) (x : Text) :
    words (g ++ x) = words x := by
  induction g with
  | nil => rfl
  | cons c g ih =>
    rw [List.forall_mem_cons] at hg
    have hfirst := words_append_cons hg.1 [] (g ++ x)
    simpa [ih hg.2] using hfirst

/-- A word, and behind it the words of what follows. -/
theorem words_word_append (ht : ∀ c ∈ t, Rescan.isBlank c = false) (hne : t ≠ [])
    (hrest : ∀ c ∈ rest.head?, Rescan.isBlank c = true) : words (t ++ rest) = t :: words rest := by
  have hword : words t = [t] := by simp [words, List.splitOnP_eq_singleton ht, hne]
  cases rest with
  | nil => simp [hword]
  | cons c rest =>
    have hc : Rescan.isBlank c = true := hrest c rfl
    have hafter := words_append_cons hc [] rest
    rw [words_append_cons hc, hword, List.singleton_append]
    simpa using hafter.symm

theorem words_blanks (hg : ∀ c ∈ g, Rescan.isBlank c = true) : words g = [] := by
  have hall := words_blanks_append hg []
  simpa using hall

/-- Induction on the words of a text: there are only blanks, or there are blanks, a word, and a text
that does not go on with the word. -/
@[elab_as_elim]
theorem word_induction {P : Text → Prop}
    (blanks : ∀ g : Text, (∀ c ∈ g, Rescan.isBlank c = true) → P g)
    (word : ∀ g t rest : Text, (∀ c ∈ g, Rescan.isBlank c = true) →
      (∀ c ∈ t, Rescan.isBlank c = false) → t ≠ [] →
      (∀ c ∈ rest.head?, Rescan.isBlank c = true) → P rest → P (g ++ (t ++ rest))) (x : Text) :
    P x := by
  induction hlen : x.length using Nat.strongRecOn generalizing x with
  | ind n ih =>
    subst hlen
    obtain ⟨g, y, rfl, hg, hy⟩ := exists_span Rescan.isBlank x
    obtain ⟨t, rest, rfl, ht, hrest⟩ := exists_span (! Rescan.isBlank ·) y
    simp only [Bool.not_eq_true', Bool.not_eq_false'] at ht hrest
    by_cases hne : t = []
    · -- behind the blanks there is neither a word nor another blank
      subst hne
      cases rest with
      | nil => simpa using blanks g hg
      | cons c rest => exact absurd (hrest c rfl) (by simpa using hy c rfl)
    · have hpos : 0 < t.length := List.length_pos_of_ne_nil hne
      have hlt : rest.length < (g ++ (t ++ rest)).length := by
        simp only [List.length_append]
        omega
      exact word g t rest hg ht hne hrest (ih _ hlt rest rfl)

end Text

open Text

/-! ## The next word -/

/-- The next word; the blanks before it are left out. -/
def nextWord {σ : Type} [CharStream σ] : Scan σ (Option Text) := do
  dropBlanks
  word

namespace Stack

variable {g t rest : Text}

theorem dropBlanks_run (hg : ∀ c ∈ g, isBlank c = true) (hrest : ∀ c ∈ rest.head?, isBlank c = false) :
    dropBlanks.run (⟨g ++ rest⟩ : Stack) = .ok () ⟨rest⟩ := by
  simp [dropBlanks, span_run hg hrest]

theorem nextWord_run (hg : ∀ c ∈ g, isBlank c = true) (ht : ∀ c ∈ t, isBlank c = false) (hne : t ≠ [])
    (hrest : ∀ c ∈ rest.head?, isBlank c = true) :
    nextWord.run (⟨g ++ (t ++ rest)⟩ : Stack) = .ok (some t) ⟨rest⟩ := by
  have hstop : ∀ c ∈ (t ++ rest).head?, isBlank c = false := by
    rw [List.head?_append_of_ne_nil _ hne]
    exact fun c hc => ht c (List.mem_of_mem_head? hc)
  have hword : word.run (⟨t ++ rest⟩ : Stack) = .ok (some t) ⟨rest⟩ :=
    nonemptySpan_run (by simpa using ht) (by simpa using hrest) hne
  simp [nextWord, dropBlanks_run hg hstop, hword]

theorem nextWord_absent (hg : ∀ c ∈ g, isBlank c = true) :
    nextWord.run (⟨g⟩ : Stack) = .ok none ⟨[]⟩ := by
  have hblanks : dropBlanks.run (⟨g ++ []⟩ : Stack) = _ := dropBlanks_run hg (by simp)
  have hword : word.run (⟨[]⟩ : Stack) = .ok none ⟨[]⟩ := nonemptySpan_absent (by simp)
  rw [List.append_nil] at hblanks
  simp [nextWord, hblanks, hword]

/-- Behind blanks a word is absent only where nothing is left: another blank would have been left out
with the others. -/
theorem eq_nil_of_word {x : Text} {s s' : Stack} (hblanks : dropBlanks.run (⟨x⟩ : Stack) = .ok () s)
    (hword : word.run s = .ok none s') : s.chars = [] := by
  rw [dropBlanks, Scan.run_bind, span_run_eq] at hblanks
  cases hblanks
  cases hx : x.dropWhile isBlank with
  | nil => rfl
  | cons c rest =>
    -- the next character begins a word
    have hc : isBlank c = false := eq_false_of_head?_dropWhile (x := x) (by simp [hx])
    rw [hx, word, nonemptySpan, Scan.run_bind, span_run_eq] at hword
    simp [hc] at hword

end Stack

namespace Simulation

variable {σ τ : Type} [CharStream σ] [CharStream τ] {S : Simulation σ τ}

theorem tracks_nextWord :
    S.Tracks [] (fun _ _ => True)
      (nextWord : Scan σ (Option Text)) (nextWord : Scan τ (Option Text)) := by
  apply tracks_dropBlanks.bind
  intro _ v _
  have hword := (tracks_nonemptySpan (S := S) (! isBlank ·)).after v
  rw [List.append_nil] at hword
  exact hword.mono fun _ _ _ => trivial

end Simulation

namespace Buffered

variable {b b₁ b' : Buffered Passage} {n : Nat}

theorem fits_nextWord : Scan.Fits 1 (nextWord : Scan (Buffered Passage) (Option Text)) :=
  ((Scan.Fits.span _).bind fun _ => .pure _).bind fun _ => .nonemptySpan _

/-- With room for a character the next word is found as it is on the stack. -/
theorem nextWord_of_stack (hn : 1 ≤ n) (hb : b.Within n) {w : Option Text} {s : Stack}
    (h : nextWord.run (⟨b.stream⟩ : Stack) = .ok w s) :
    ∃ b', nextWord.run b = .ok w b' ∧ b'.Within n ∧ b'.stream = s.chars ∧
      b'.offset + b'.stream.length = b.offset + b.stream.length := by
  have hfits := fits_nextWord hn hb
  have hagree := agree_stack_of_isOverfull_eq Simulation.tracks_nextWord hfits.isOverfull_eq
  obtain ⟨b', hrun, hs, v, hv⟩ := hagree.exists_of_ok_right h
  rw [hrun] at hfits
  exact ⟨b', hrun, hfits.within, hs.symm, hv.offset_add_length⟩

/-- One word after the other. The induction is on the words of the stream. -/
theorem exists_words_until_absent (hn : 1 ≤ n) (x : Text) (hb : b.Within n) (hx : b.stream = x) :
    ∃ visited b', nextWord.UntilAbsent b visited b' ∧ visited.map Prod.fst = x.words ∧
      b'.stream = [] ∧ b'.offset = b.offset + x.length := by
  induction x using word_induction generalizing b with
  | blanks g hg =>
    obtain ⟨b', hrun, -, hs, hcount⟩ := nextWord_of_stack hn hb (hx ▸ Stack.nextWord_absent hg)
    rw [hs, hx] at hcount
    exact ⟨[], b', .absent hrun, (words_blanks hg).symm, hs, hcount⟩
  | word g t rest hg ht hne hrest ih =>
    obtain ⟨b₁, hrun, hb₁, hs₁, hcount₁⟩ :=
      nextWord_of_stack hn hb (hx ▸ Stack.nextWord_run hg ht hne hrest)
    obtain ⟨visited, b', hloop, hvisited, hs', hoffset⟩ := ih hb₁ hs₁
    refine ⟨(t, b₁) :: visited, b', .present hrun hloop, ?_, hs', ?_⟩
    · simp [words_blanks_append hg, words_word_append ht hne hrest, hvisited]
    · rw [hs₁, hx] at hcount₁
      exact hoffset.trans hcount₁

theorem stream_eq_nil_of_word (hblanks : dropBlanks.run b = .ok () b₁)
    (hword : word.run b₁ = .ok none b') : b₁.stream = [] := by
  obtain ⟨s, hrun, hs, -⟩ := stack_of_run_ok Simulation.tracks_dropBlanks hblanks
  obtain ⟨s', hrun', -⟩ := stack_of_run_ok (Simulation.tracks_nonemptySpan _) hword
  rw [← hs] at hrun' ⊢
  exact Stack.eq_nil_of_word hrun hrun'

end Buffered

/-- **Reading word after word finds all words.** Take a buffered passage with capacity for a character
and no more pending than its capacity, and leave out blanks and read a word until there is none. No step
of this fails; they are the words of its stream, in order; and in the end all of the stream has been
consumed. And behind blanks there is a word unless the input is at its end. -/
theorem words_until_end {b : Buffered Passage} (hb : b.pending.length ≤ b.capacity)
    (hn : 1 ≤ b.capacity) :
    (∃ visited b', nextWord.UntilAbsent b visited b' ∧ visited.map Prod.fst = b.stream.words ∧
      b'.stream = [] ∧ b'.offset = b.offset + b.stream.length) ∧
    ∀ b₁ b', dropBlanks.run b = .ok () b₁ → word.run b₁ = .ok none b' → b₁.stream = [] :=
  ⟨exists_words_until_absent hn b.stream ⟨rfl, hb⟩ rfl, fun _ _ => stream_eq_nil_of_word⟩

/-- A word of which one character is pending and fills the buffer, and another one behind two blanks. -/
theorem words_until_end_full :
    let b : Buffered Passage := { source := ⟨['b', ' ', '\t', 'c']⟩, pending := ['a'], capacity := 1 }
    ∃ visited b', nextWord.UntilAbsent b visited b' ∧
      visited.map Prod.fst = [['a', 'b'], ['c']] ∧ b'.stream = [] ∧ b'.offset = 5 := by
  intro b
  obtain ⟨hall, -⟩ := words_until_end (b := b) (by decide) (by decide)
  obtain ⟨visited, b', hloop, hvisited, hs, hoffset⟩ := hall
  have hwords : b.stream.words = [['a', 'b'], ['c']] := by decide +kernel
  exact ⟨visited, b', hloop, hvisited.trans hwords, hs, hoffset⟩

end Rescan
