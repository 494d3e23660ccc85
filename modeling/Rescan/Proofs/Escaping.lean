import Rescan.Proofs.Evaluation
import Rescan.Proofs.Plain

/-!
# Escaped delimiters

Where the escape character is not the closing delimiter, a literal is read with one character of memory
and without looking ahead. It ends at the first delimiter that no escape character stands before. The
opening delimiter is not part of the content, so it escapes nothing, even if it is the escape character.
And an escape character escapes only the delimiter: two of them in a row are no way of writing one.

So a content in which every delimiter is escaped reads back, unless it ends with an escape character,
which would escape the closing delimiter as well.

Nothing is ever handed back, so no room is needed.

## Main definitions

* `Delimiters.UnescapedAt`: an index at which the content can end.
* `Text.guarded`: a text with a character written before every occurrence of another.

## Main statements

* `delimited_until_unescaped`: where a literal ends, and which escaped contents can be read back.
-/

namespace Rescan

open Buffered

/-! ## Delimiters that are not escaped -/

/-- At index `i` of the content there is a closing delimiter that is not escaped: it is the first
character, or there is no escape character, or another character stands before it. -/
def Delimiters.UnescapedAt (d : Delimiters) (x : Text) (i : Nat) : Prop :=
  x[i]? = some d.closing ∧ (i = 0 ∨ d.escape = none ∨ x[i - 1]? ≠ d.escape)

instance (d : Delimiters) (x : Text) (i : Nat) : Decidable (d.UnescapedAt x i) :=
  inferInstanceAs (Decidable (_ ∧ (_ ∨ _ ∨ _)))

namespace Delimiters

variable {d : Delimiters} {c : Char} {u v x : Text} {i : Nat}

theorem UnescapedAt.lt_length (h : d.UnescapedAt x i) : i < x.length :=
  (List.getElem?_eq_some_iff.1 h.1).1

/-- What the loop remembers of the content is its last character, and that is where the index before
points. -/
theorem escapedBy_getLast? : d.escapedBy u.getLast? = false ↔
    u.length = 0 ∨ d.escape = none ∨ (u ++ v)[u.length - 1]? ≠ d.escape := by
  rcases u.eq_nil_or_concat with rfl | ⟨w, e, rfl⟩
  · simp [escapedBy]
  · cases he : d.escape <;> simp [escapedBy, he, @eq_comm _ e]

/-- Where the closing delimiter does not escape itself, only the character before it matters. -/
theorem unescapedAt_append (hd : d.isDoubling = false) :
    d.UnescapedAt (u ++ c :: v) u.length ↔ d.closesAt u.getLast? c v.head? = true := by
  have hat : (u ++ c :: v)[u.length]? = some c := by simp
  rw [UnescapedAt, hat, ← escapedBy_getLast?, Option.some.injEq, closesAt_of_not_isDoubling hd]

end Delimiters

/-! ## Escaping -/

namespace Text

variable {e q c : Char} {t u v : Text}

/-- The text with `e` written before every `q` in it. -/
def guarded (e q : Char) (t : Text) : Text :=
  t.flatMap fun c => if c = q then [e, q] else [c]

@[simp] theorem guarded_nil (e q : Char) : guarded e q [] = [] := rfl

@[simp] theorem guarded_self (e q : Char) (t : Text) :
    guarded e q (q :: t) = e :: q :: guarded e q t := by
  simp [guarded]

@[simp] theorem guarded_other (hc : c ≠ q) (t : Text) :
    guarded e q (c :: t) = c :: guarded e q t := by
  simp [guarded, hc]

theorem getLast?_guarded (e q : Char) (t : Text) : (guarded e q t).getLast? = t.getLast? := by
  rcases t.eq_nil_or_concat with rfl | ⟨w, c, rfl⟩
  · rfl
  · by_cases hc : c = q <;> simp [guarded, hc]

/-- Before every `q` of a guarded text there is an `e`; the induction on the text goes from one
guarded character to the next. -/
theorem getLast?_of_guarded (he : e ≠ q) (h : guarded e q t = u ++ q :: v) :
    u.getLast? = some e := by
  induction t generalizing u with
  | nil => simp at h
  | cons c t ih =>
    by_cases hc : c = q
    · subst hc
      rw [guarded_self] at h
      match u with
      | [] => exact absurd (List.cons.inj h).1 he
      | [d] =>
        obtain ⟨rfl, -⟩ := List.cons.inj h
        rfl
      | d :: d' :: u =>
        have htail := (List.cons.inj (List.cons.inj h).2).2
        exact List.mem_getLast?_cons (List.mem_getLast?_cons (ih htail))
    · rw [guarded_other hc] at h
      cases u with
      | nil => exact absurd (List.cons.inj h).1 hc
      | cons d u => exact List.mem_getLast?_cons (ih (List.cons.inj h).2)

end Text

open Text

/-! ## The end of a literal -/

namespace Stack

variable {d : Delimiters} {u v x : Text}

/-- A delimiter ends the literal where it is the first that is not escaped. -/
theorem delimited_unescaped (hd : d.isDoubling = false)
    (hclose : d.UnescapedAt (u ++ d.closing :: v) u.length)
    (hfirst : ∀ j < u.length, ¬ d.UnescapedAt (u ++ d.closing :: v) j) :
    (delimited d).run (⟨d.opening :: (u ++ d.closing :: v)⟩ : Stack) = .ok (some u) ⟨v⟩ := by
  apply delimited_run
  · intro w c y hu
    have hnot := hfirst w.length (by rw [hu]; simp)
    rw [hu, List.append_assoc, List.cons_append, Delimiters.unescapedAt_append hd] at hnot
    exact Bool.not_eq_true _ ▸ hnot
  · exact (Delimiters.unescapedAt_append hd).1 hclose

/-- Where every delimiter is escaped, the literal does not end. -/
theorem delimited_no_unescaped (hd : d.isDoubling = false) (hnone : ∀ i, ¬ d.UnescapedAt x i) :
    (delimited d).run (⟨d.opening :: x⟩ : Stack) = .error (.unclosed d.closing) ⟨[]⟩ := by
  apply delimited_unclosed
  intro w c y hx
  have hnot := hnone w.length
  rw [hx, Delimiters.unescapedAt_append hd] at hnot
  exact Bool.not_eq_true _ ▸ hnot

/-- The closing delimiter behind a guarded content is the first that is not escaped, if it is not
escaped itself. -/
theorem delimited_guarded_run_iff (hd : d.isDoubling = false) {e : Char} (he : d.escape = some e)
    (t after : Text) :
    (delimited d).run (⟨d.opening :: (guarded e d.closing t ++ d.closing :: after)⟩ : Stack) =
      .ok (some (guarded e d.closing t)) ⟨after⟩ ↔ t.getLast? ≠ some e := by
  have hne : e ≠ d.closing := by
    intro h
    simp [Delimiters.isDoubling, he, h] at hd
  have hescaped {before : Option Char} : d.escapedBy before = false ↔ before ≠ some e := by
    cases before <;> simp [Delimiters.escapedBy, he, @eq_comm _ e]
  constructor
  · intro h
    obtain ⟨s, hopening, hcontent⟩ := delimited_eq_some h
    rw [next_run_cons] at hopening
    cases hopening
    obtain ⟨-, hclose⟩ := closesAt_of_contentFrom hcontent
    rw [Option.or_none, getLast?_guarded, Delimiters.closesAt_of_not_isDoubling hd] at hclose
    exact hescaped.1 hclose.2
  · intro hlast
    apply delimited_run
    · intro u c v hu
      rw [← Bool.not_eq_true, Delimiters.closesAt_of_not_isDoubling hd]
      intro h
      obtain ⟨rfl, hbefore⟩ := h
      exact hescaped.1 hbefore (getLast?_of_guarded hne hu)
    · rw [Delimiters.closesAt_of_not_isDoubling hd, getLast?_guarded]
      exact ⟨rfl, hescaped.2 hlast⟩

end Stack

/-! ## Without room -/

section Room

variable {d : Delimiters} (hd : d.isDoubling = false)

include hd

/-- Only looking for a second delimiter hands something back. -/
theorem isOverfull_contentFrom (before : Option Char) (b : Buffered Passage) :
    (contentFrom d before b).isOverfull = false := by
  fun_induction contentFrom d before b with
  | case1 => rfl
  | case2 before b e b' hnext =>
    -- a passage does not fail
    change Buffered.next b = _ at hnext
    rw [next_eq_of_stream] at hnext
    split at hnext <;> cases hnext
  | case3 before b c b' hnext hc hdoubling => exact absurd hdoubling (by simp [hd])
  | case4 before b c b' hnext hc hdoubling => exact absurd hdoubling (by simp [hd])
  | case5 before b c b' hnext hc hdoubling => exact absurd hdoubling (by simp [hd])
  | case6 => rfl
  | case7 before b c b' hnext hc ih => rwa [Outcome.isOverfull_map]

theorem isOverfull_delimited {b : Buffered Passage} {x : Text} (hx : b.stream = d.opening :: x) :
    ((delimited d).run b).isOverfull = false := by
  have hnext : Source.next.run b = .ok (some d.opening) b.advance := by
    show Buffered.next b = _
    rw [next_eq_of_stream, hx]
  simp [delimited, hnext, isOverfull_contentFrom hd]

end Room

/-- **An escaped delimiter does not end a literal.** Take a buffered passage, of any capacity, whose
stream begins with the opening delimiter, and an escape character that is not the closing delimiter, if
there is one. If `i` is the least index behind the opening delimiter at which a closing delimiter is not
escaped, the literal is the text before that index, and the stream goes on behind it. If there is no
such index, the closing delimiter is missing, and the whole stream has been read. So a text in which
every delimiter is escaped reads back before a closing delimiter, whatever follows, exactly if it does
not end with the escape character. -/
theorem delimited_until_unescaped {d : Delimiters} (hd : d.isDoubling = false)
    {b : Buffered Passage} {x : Text} (hx : b.stream = d.opening :: x) :
    (∀ i, d.UnescapedAt x i → (∀ j < i, ¬ d.UnescapedAt x j) →
      ∃ b', (delimited d).run b = .ok (some (x.take i)) b' ∧ b'.stream = x.drop (i + 1) ∧
        b'.offset = b.offset + (i + 2)) ∧
    ((∀ i, ¬ d.UnescapedAt x i) →
      ∃ b', (delimited d).run b = .error (.unclosed d.closing) b' ∧ b'.stream = [] ∧
        b'.offset = b.offset + (x.length + 1)) ∧
    ∀ e t after, d.escape = some e → x = guarded e d.closing t ++ d.closing :: after →
      ((∃ b', (delimited d).run b = .ok (some (guarded e d.closing t)) b' ∧ b'.stream = after) ↔
        t.getLast? ≠ some e) := by
  have htracks := Simulation.tracks_delimited (S := evaluating b) d
  have hagree := agree_stack_of_isOverfull_eq htracks (isOverfull_delimited hd hx)
  rw [hx] at hagree
  refine ⟨?_, ?_, ?_⟩
  · intro i hclose hfirst
    obtain ⟨u, v, rfl, rfl⟩ := exists_append_of_getElem? hclose.1
    have hstack := Stack.delimited_unescaped hd hclose hfirst
    obtain ⟨b', hrun, hrest, w, hw⟩ := hagree.exists_of_ok_right hstack
    have hcount := hw.offset_add_length
    refine ⟨b', ?_, ?_, ?_⟩
    · rw [hrun, List.take_left]
    · simp [← hrest]
    · rw [← hrest, hx] at hcount
      simp only [List.length_cons, List.length_append] at hcount
      omega
  · intro hnone
    have hstack := Stack.delimited_no_unescaped hd hnone
    obtain ⟨b', hrun, hrest, w, hw⟩ := hagree.exists_of_error_right hstack
    have hcount := hw.offset_add_length
    refine ⟨b', hrun, hrest.symm, ?_⟩
    rw [← hrest, hx] at hcount
    exact hcount
  · intro e t after he ht
    subst ht
    rw [← Stack.delimited_guarded_run_iff hd he t after]
    constructor
    · intro h
      obtain ⟨b', hrun, rfl⟩ := h
      obtain ⟨s, hstack, hchars, -⟩ := hagree.exists_of_ok hrun
      rw [hstack, ← hchars]
    · intro hstack
      obtain ⟨b', hrun, hrest, -⟩ := hagree.exists_of_ok_right hstack
      exact ⟨b', hrun, hrest.symm⟩

/-- The opening delimiter escapes those behind it but not the first character of the content. What was
read may have been pending in a full buffer, and a buffer without room will do. -/
theorem delimited_until_unescaped_self_opening :
    let d : Delimiters := { opening := '[', closing := ']', escape := some '[' }
    let full : Buffered Passage :=
      { source := ⟨[']', 'a', ']', 'b']⟩, pending := ['[', '['], capacity := 2 }
    let bare (t : Text) : Buffered Passage := { source := ⟨t⟩, capacity := 0 }
    d.isDoubling = false ∧
    (∃ b', (delimited d).run full = .ok (some ['[', ']', 'a']) b' ∧ b'.stream = ['b'] ∧
      b'.offset = 5) ∧
    (∃ b', (delimited d).run full = .ok (some (guarded '[' ']' [']', 'a'])) b' ∧
      b'.stream = ['b']) ∧
    (∃ b', (delimited d).run (bare ['[', ']', 'b']) = .ok (some []) b' ∧ b'.stream = ['b'] ∧
      b'.offset = 2) ∧
    (∃ b', (delimited d).run (bare ['[', 'a', '[', ']']) = .error (.unclosed ']') b' ∧
      b'.stream = [] ∧ b'.offset = 4) ∧
    ¬ ∃ b', (delimited d).run (bare ['[', 'a', '[', ']']) =
      .ok (some (guarded '[' ']' ['a', '['])) b' ∧ b'.stream = [] := by
  intro d full bare
  have hd : d.isDoubling = false := by decide
  obtain ⟨hclose, -, hguarded⟩ := delimited_until_unescaped hd (b := full)
    (x := ['[', ']', 'a', ']', 'b']) rfl
  obtain ⟨hempty, -, -⟩ := delimited_until_unescaped hd (b := bare ['[', ']', 'b'])
    (x := [']', 'b']) rfl
  obtain ⟨-, hnone, hescape⟩ := delimited_until_unescaped hd (b := bare ['[', 'a', '[', ']'])
    (x := ['a', '[', ']']) rfl
  have hopen : ∀ i, ¬ d.UnescapedAt ['a', '[', ']'] i := by
    intro i hi
    have hshort : ∀ j < 3, ¬ d.UnescapedAt ['a', '[', ']'] j := by decide
    exact hshort i hi.lt_length hi
  exact ⟨hd, hclose 3 (by decide) (by decide),
    (hguarded '[' [']', 'a'] ['b'] rfl rfl).2 (by decide), hempty 0 (by decide) (by decide),
    hnone hopen, fun h => (hescape '[' ['a', '['] [] rfl rfl).1 h rfl⟩

end Rescan
