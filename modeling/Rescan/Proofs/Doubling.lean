import Rescan.Proofs.Escaping

/-!
# Doubled delimiters

Where the closing delimiter escapes itself, a literal is read with one character of memory and one of
look-ahead. In terms of the whole text it ends at the first delimiter that stands alone, which is the
first maximal run of exactly one: whatever its length, a longer run is content.

So a content in which every delimiter is doubled does not end early. But it may end late. If it ends
with a delimiter, the closing one stands behind a pair, and the run of three is content as a whole.

## Main definitions

* `Text.LoneAt`: an index at which a character stands alone.
* `Text.doubled`: a text with every occurrence of a character written twice.

## Main statements

* `delimited_until_lone`: a literal with a doubled delimiter ends at the first one that stands alone.
* `delimited_doubled_iff`: which doubled contents can be read back.
-/

namespace Rescan

open Buffered

/-! ## Characters that stand alone -/

/-- At index `i` of the text there is the character `q`, and on either side of it another one or none. -/
def Text.LoneAt (q : Char) (x : Text) (i : Nat) : Prop :=
  x[i]? = some q ∧ (i = 0 ∨ x[i - 1]? ≠ some q) ∧ x[i + 1]? ≠ some q

instance (q : Char) (x : Text) (i : Nat) : Decidable (Text.LoneAt q x i) :=
  inferInstanceAs (Decidable (_ ∧ _ ∧ _))

namespace Text

variable {q c : Char} {t u v x : Text} {i : Nat}

/-- An index divides the text into what is before the character and what is behind it. -/
theorem LoneAt.eq_append (h : LoneAt q x i) : ∃ u v, x = u ++ q :: v ∧ u.length = i :=
  exists_append_of_getElem? h.1

theorem LoneAt.lt_length (h : LoneAt q x i) : i < x.length :=
  (List.getElem?_eq_some_iff.1 h.1).1

theorem loneAt_append :
    LoneAt q (u ++ c :: v) u.length ↔ c = q ∧ u.getLast? ≠ some q ∧ v.head? ≠ some q := by
  have hat : (u ++ c :: v)[u.length]? = some c := by simp
  have hafter : (u ++ c :: v)[u.length + 1]? = v.head? := by
    simp [List.getElem?_append_right, List.head?_eq_getElem?]
  have hbefore : (u.length = 0 ∨ (u ++ c :: v)[u.length - 1]? ≠ some q) ↔ u.getLast? ≠ some q := by
    rcases u.eq_nil_or_concat with rfl | ⟨w, e, rfl⟩
    · simp
    · simp
  rw [LoneAt, hat, hafter, hbefore, Option.some.injEq]

/-! ## Doubling -/

/-- The text with every `q` in it written twice. -/
def doubled (q : Char) (t : Text) : Text :=
  t.flatMap fun c => if c = q then [q, q] else [c]

@[simp] theorem doubled_nil (q : Char) : doubled q [] = [] := rfl

/-- A doubled character is one that guards itself. -/
theorem doubled_eq_guarded (q : Char) (t : Text) : doubled q t = guarded q q t := rfl

@[simp] theorem doubled_self (q : Char) (t : Text) : doubled q (q :: t) = q :: q :: doubled q t :=
  guarded_self q q t

@[simp] theorem doubled_other (hc : c ≠ q) (t : Text) : doubled q (c :: t) = c :: doubled q t :=
  guarded_other hc t

theorem getLast?_doubled (q : Char) (t : Text) : (doubled q t).getLast? = t.getLast? := by
  rw [doubled_eq_guarded, getLast?_guarded]

/-- A doubled character stands next to another one: a pair has both of its characters side by side, and
the induction on the text goes from one pair to the next. -/
theorem beside_of_doubled (h : doubled q t = u ++ q :: v) :
    u.getLast? = some q ∨ v.head? = some q := by
  induction t generalizing u with
  | nil => simp at h
  | cons c t ih =>
    by_cases hc : c = q
    · subst hc
      rw [doubled_self] at h
      match u with
      | [] =>
        obtain ⟨-, rfl⟩ := List.cons.inj h
        exact .inr rfl
      | [d] =>
        obtain ⟨rfl, -⟩ := List.cons.inj h
        exact .inl rfl
      | d :: e :: u =>
        obtain ⟨-, htail⟩ := List.cons.inj h
        rcases ih (List.cons.inj htail).2 with hu | hv
        · exact .inl (List.mem_getLast?_cons (List.mem_getLast?_cons hu))
        · exact .inr hv
    · rw [doubled_other hc] at h
      cases u with
      | nil => exact absurd (List.cons.inj h).1 hc
      | cons d u =>
        rcases ih (List.cons.inj h).2 with hu | hv
        · exact .inl (List.mem_getLast?_cons hu)
        · exact .inr hv

end Text

open Text

/-! ## The end of a literal -/

namespace Stack

variable {d : Delimiters} {u v x : Text}

/-- A delimiter ends the literal where it is the first that stands alone. -/
theorem delimited_lone (hd : d.isDoubling = true)
    (hlone : LoneAt d.closing (u ++ d.closing :: v) u.length)
    (hfirst : ∀ j < u.length, ¬ LoneAt d.closing (u ++ d.closing :: v) j) :
    (delimited d).run (⟨d.opening :: (u ++ d.closing :: v)⟩ : Stack) = .ok (some u) ⟨v⟩ := by
  apply delimited_run
  · intro w c y hu
    have hnot := hfirst w.length (by rw [hu]; simp)
    rw [hu, List.append_assoc, List.cons_append, loneAt_append] at hnot
    rw [← Bool.not_eq_true, Delimiters.closesAt_of_isDoubling hd]
    exact hnot
  · exact (Delimiters.closesAt_of_isDoubling hd).2 (loneAt_append.1 hlone)

/-- Where none stands alone, the literal does not end. -/
theorem delimited_no_lone (hd : d.isDoubling = true) (hnone : ∀ i, ¬ LoneAt d.closing x i) :
    (delimited d).run (⟨d.opening :: x⟩ : Stack) = .error (.unclosed d.closing) ⟨[]⟩ := by
  apply delimited_unclosed
  intro w c y hx
  have hnot := hnone w.length
  rw [hx, loneAt_append] at hnot
  rw [← Bool.not_eq_true, Delimiters.closesAt_of_isDoubling hd]
  exact hnot

end Stack

/-- **A doubled delimiter ends a literal where it first stands alone.** Take a buffered passage with
capacity for a character and no more pending than its capacity, whose stream begins with the opening
delimiter. If `i` is the least index behind it at which the closing delimiter stands alone, the literal
is the text before that index, and the stream goes on behind it. If there is no such index, the closing
delimiter is missing, and the whole stream has been read. -/
theorem delimited_until_lone {d : Delimiters} (hd : d.isDoubling = true) {b : Buffered Passage}
    (hb : b.pending.length ≤ b.capacity) (hn : 1 ≤ b.capacity) {x : Text}
    (hx : b.stream = d.opening :: x) :
    (∀ i, LoneAt d.closing x i → (∀ j < i, ¬ LoneAt d.closing x j) →
      ∃ b', (delimited d).run b = .ok (some (x.take i)) b' ∧ b'.stream = x.drop (i + 1) ∧
        b'.offset = b.offset + (i + 2)) ∧
    ((∀ i, ¬ LoneAt d.closing x i) →
      ∃ b', (delimited d).run b = .error (.unclosed d.closing) b' ∧ b'.stream = [] ∧
        b'.offset = b.offset + (x.length + 1)) := by
  have htracks := Simulation.tracks_delimited (S := evaluating b) d
  have hfits : Scan.Fits 1 (delimited d : Scan (Buffered Passage) _) := .delimited d
  constructor
  · intro i hlone hfirst
    obtain ⟨u, v, rfl, rfl⟩ := hlone.eq_append
    have hstack := Stack.delimited_lone hd hlone hfirst
    rw [← hx] at hstack
    obtain ⟨b', hrun, hrest, w, hw⟩ := run_of_stack_ok htracks hfits hn hb hstack
    have hcount := hw.offset_add_length
    refine ⟨b', ?_, ?_, ?_⟩
    · rw [hrun, List.take_left]
    · simp [hrest]
    · rw [hrest, hx] at hcount
      simp only [List.length_cons, List.length_append] at hcount
      omega
  · intro hnone
    have hstack := Stack.delimited_no_lone hd hnone
    rw [← hx] at hstack
    obtain ⟨b', hrun, hrest, w, hw⟩ := run_of_stack_error htracks hfits hn hb hstack
    have hcount := hw.offset_add_length
    refine ⟨b', hrun, hrest, ?_⟩
    rw [hrest, hx] at hcount
    exact hcount

/-- A pair and a run of three are content, and the delimiter behind them ends the literal; the first
characters were pending in a full buffer. Without that delimiter the literal does not end. -/
theorem delimited_until_lone_after_runs :
    let d : Delimiters := { opening := '<', closing := '%', escape := some '%' }
    (let b : Buffered Passage :=
        { source := ⟨['a', '%', '%', '%', 'b', '%', 'c']⟩, pending := ['<', '%', '%'], capacity := 3 }
      ∃ b', (delimited d).run b = .ok (some ['%', '%', 'a', '%', '%', '%', 'b']) b' ∧
        b'.stream = ['c'] ∧ b'.offset = 9) ∧
    (let b : Buffered Passage :=
        { source := ⟨['a', '%', '%', '%', 'b']⟩, pending := ['<', '%', '%'], capacity := 3 }
      ∃ b', (delimited d).run b = .error (.unclosed '%') b' ∧ b'.stream = [] ∧ b'.offset = 8) := by
  intro d
  constructor
  · intro b
    obtain ⟨hlone, -⟩ := delimited_until_lone (d := d) rfl (b := b) (by decide) (by decide)
      (x := ['%', '%', 'a', '%', '%', '%', 'b', '%', 'c']) rfl
    exact hlone 7 (by decide) (by decide)
  · intro b
    obtain ⟨-, hnone⟩ := delimited_until_lone (d := d) rfl (b := b) (by decide) (by decide)
      (x := ['%', '%', 'a', '%', '%', '%', 'b']) rfl
    apply hnone
    intro i hi
    have hshort : ∀ j < 7, ¬ LoneAt '%' ['%', '%', 'a', '%', '%', '%', 'b'] j := by decide
    exact hshort i hi.lt_length hi

/-! ## Doubled contents -/

/-- Only the delimiter behind a doubled content can stand alone, and it does unless the content ends
with another one. -/
theorem Stack.delimited_doubled_run_iff {q : Char} {t after : Text} (ha : after.head? ≠ some q) :
    (delimited (.doubling q)).run (⟨q :: (doubled q t ++ q :: after)⟩ : Stack) =
      .ok (some (doubled q t)) ⟨after⟩ ↔ t.getLast? ≠ some q := by
  constructor
  · intro h
    obtain ⟨s, hopening, hcontent⟩ := delimited_eq_some h
    rw [next_run_cons] at hopening
    cases hopening
    obtain ⟨-, hclose⟩ := closesAt_of_contentFrom hcontent
    rw [Option.or_none, getLast?_doubled] at hclose
    exact (Delimiters.closesAt_doubling.1 hclose).2.1
  · intro hlast
    apply delimited_run (d := .doubling q)
    · intro u c v hu
      rw [← Bool.not_eq_true, Delimiters.closesAt_doubling]
      intro h
      obtain ⟨rfl, hbefore, hafter⟩ := h
      rcases beside_of_doubled hu with hu | hv
      · exact hbefore hu
      · exact hafter (by rw [List.head?_append, hv]; rfl)
    · exact Delimiters.closesAt_doubling.2 ⟨rfl, by rwa [getLast?_doubled], ha⟩

/-- **Which doubled contents read back.** Take a buffered passage with capacity for a character and no
more pending than its capacity, whose stream is a text between two delimiters, with every delimiter in
it doubled, and something behind that does not begin with a delimiter. The doubled text is read back,
and what is behind it is left, exactly if the text does not end with a delimiter. If it does, the last
delimiter is taken to belong to a pair. -/
theorem delimited_doubled_iff {q : Char} {t after : Text} (ha : after.head? ≠ some q)
    {b : Buffered Passage} (hb : b.pending.length ≤ b.capacity) (hn : 1 ≤ b.capacity)
    (hs : b.stream = q :: (doubled q t ++ q :: after)) :
    (∃ b', (delimited (.doubling q)).run b = .ok (some (doubled q t)) b' ∧ b'.stream = after) ↔
      t.getLast? ≠ some q := by
  have htracks := Simulation.tracks_delimited (S := evaluating b) (.doubling q)
  have hfits : Scan.Fits 1 (delimited (.doubling q) : Scan (Buffered Passage) _) := .delimited _
  rw [← Stack.delimited_doubled_run_iff ha, ← hs]
  constructor
  · intro h
    obtain ⟨b', hrun, rfl⟩ := h
    obtain ⟨s, hstack, hchars, -⟩ := (agree_stack htracks hfits hn hb).exists_of_ok hrun
    rw [hstack, ← hchars]
  · intro hstack
    obtain ⟨b', hrun, hrest, -⟩ := run_of_stack_ok htracks hfits hn hb hstack
    exact ⟨b', hrun, hrest⟩

/-- A pair at the start of a content reads back, and one at its end does not. -/
theorem delimited_doubled_iff_pair :
    let b (t : Text) : Buffered Passage :=
      { source := ⟨doubled '%' t ++ ['%', 'x']⟩, pending := ['%'], capacity := 1 }
    (∃ b', (delimited (.doubling '%')).run (b ['%', 'a']) = .ok (some ['%', '%', 'a']) b' ∧
      b'.stream = ['x']) ∧
    ¬ ∃ b', (delimited (.doubling '%')).run (b ['a', '%']) = .ok (some ['a', '%', '%']) b' ∧
      b'.stream = ['x'] := by
  intro b
  have hafter : (['x'] : Text).head? ≠ some '%' := by decide
  have hstart := delimited_doubled_iff (t := ['%', 'a']) hafter (b := b ['%', 'a']) (by decide)
    (by decide) rfl
  have hend := delimited_doubled_iff (t := ['a', '%']) hafter (b := b ['a', '%']) (by decide)
    (by decide) rfl
  exact ⟨hstart.2 (by decide), fun hread => hend.1 hread rfl⟩

/-- A content that ends with a delimiter, doubled and closed at the end of the input: the closing
delimiter is said to be missing. -/
theorem delimited_doubled_unread :
    let b : Buffered Passage := Buffered.start ⟨['%', 'a', '%', '%', '%']⟩
    1 ≤ b.capacity ∧ b.stream = '%' :: (doubled '%' ['a', '%'] ++ '%' :: []) ∧
      ([] : Text).head? ≠ some '%' ∧
      (∃ b', (delimited (.doubling '%')).run b = .error (.unclosed '%') b' ∧ b'.stream = []) ∧
      ¬ ∃ b', (delimited (.doubling '%')).run b = .ok (some (doubled '%' ['a', '%'])) b' ∧
        b'.stream = [] := by
  intro b
  let b' : Buffered Passage := { source := ⟨[]⟩, capacity := 8192, offset := 5 }
  have hrun : (delimited (.doubling '%')).run b = .error (.unclosed '%') b' := by decide +kernel
  refine ⟨by decide, rfl, by decide, ⟨b', hrun, rfl⟩, fun h => ?_⟩
  obtain ⟨b'', hread, -⟩ := h
  cases hrun.symm.trans hread

end Rescan
