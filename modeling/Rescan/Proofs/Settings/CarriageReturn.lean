import Rescan.Proofs.Escaping
import Rescan.Proofs.LineEnd
import Rescan.Proofs.Settings.LineNumber

/-!
# Carriage returns before line feeds

A line may also be ended by a carriage return with a line feed behind it. To a statement or a comment
the carriage return alone is the end of the line, and it is counted. The line feed is then left for the
blanks before the next statement, among which it is counted once more. Among blanks the carriage return
does not count, so a blank line is one line either way.

Nothing else depends on how lines end, as long as there are no quotes: the keys, the values, what is
ignored and the fault are the same.

## Main definitions

* `Text.crlf`: a text with a carriage return before every line feed.
* `Text.nonblankBefore`: how many of the first lines of a text are not blank.
* `Relocated`: two readings that differ by the numbers of the lines.

## Main statements

* `alike_assignment`, `alike_keyed`: a statement does not depend on what is behind its line.
* `relocated_line`: documents that begin with the same line.
* `read_crlf`: a document with carriage returns and the same document without them.
-/

namespace Rescan

open CharStream

/-! ## Texts with carriage returns -/

namespace Text

variable {l : Text}

/-- The text with a carriage return written before every line feed. -/
def crlf (t : Text) : Text :=
  guarded '\r' '\n' t

/-- The number of lines among the first `n` lines that are not blank. -/
def nonblankBefore (t : Text) (n : Nat) : Nat :=
  ((t.splitOn '\n').take n).countP fun l => ! isBlank l

theorem crlf_of_line (hl : ∀ c ∈ l, endsLine c = false) : crlf l = l := by
  induction l with
  | nil => rfl
  | cons c l ih =>
    rw [List.forall_mem_cons] at hl
    have hc : c ≠ '\n' := by
      rintro rfl
      exact absurd hl.1 (by decide)
    rw [crlf, guarded_other hc]
    exact congrArg (c :: ·) (ih hl.2)

theorem crlf_append_line (hl : ∀ c ∈ l, endsLine c = false) (u : Text) :
    crlf (l ++ '\n' :: u) = l ++ '\r' :: '\n' :: crlf u := by
  have happend : crlf (l ++ '\n' :: u) = crlf l ++ crlf ('\n' :: u) := List.flatMap_append
  rw [happend, crlf_of_line hl, crlf, guarded_self]
  rfl

/-- The first line counts unless it is blank. -/
theorem nonblankBefore_append_line (hl : ∀ c ∈ l, endsLine c = false) (u : Text) (n : Nat) :
    nonblankBefore (l ++ '\n' :: u) (n + 1) = nonblankBefore u n + if l.isBlank then 0 else 1 := by
  have hne : ∀ c ∈ l, (c == '\n') = false := by
    intro c hc
    rw [beq_eq_false_iff_ne]
    rintro rfl
    exact absurd (hl _ hc) (by decide)
  have hsplit : (l ++ '\n' :: u).splitOn '\n' = l :: u.splitOn '\n' :=
    List.splitOnP_append_cons_of_forall_mem hne _ (beq_self_eq_true _) _
  rw [nonblankBefore, hsplit, List.take_succ_cons, List.countP_cons, nonblankBefore]
  cases l.isBlank <;> rfl

end Text

open Text

namespace Settings

/-! ## Moving lines -/

/-- The item, with another number given to its line. -/
def Item.relocate (f : Nat → Nat) : Item → Item
  | setting line key value ignored => setting (f line) key value ignored
  | stray line key rest => stray (f line) key rest

/-- The setting, with another number given to its line. -/
def Setting.relocate (f : Nat → Nat) (x : Setting) : Setting :=
  { x with line := f x.line }

/-- The warning, with another number given to its line. -/
def Warning.relocate (f : Nat → Nat) : Warning → Warning
  | ignored line rest value => ignored (f line) rest value
  | noValue line key rest => noValue (f line) key rest

/-- Only the number of its own line matters. -/
theorem Item.relocate_of_line {f : Nat → Nat} {item : Item} (h : f item.line = item.line) :
    item.relocate f = item := by
  cases item with
  | setting line key value ignored => exact congrArg (Item.setting · key value ignored) h
  | stray line key rest => exact congrArg (Item.stray · key rest) h

theorem setting?_relocate (f : Nat → Nat) (item : Item) :
    (item.relocate f).setting? = item.setting?.map (·.relocate f) := by
  cases item <;> rfl

theorem warning?_relocate (f : Nat → Nat) (item : Item) :
    (item.relocate f).warning? = item.warning?.map (·.relocate f) := by
  cases item with
  | stray line key rest => rfl
  | setting line key value rest => cases rest <;> rfl

/-- The fault that ended the reading of a document, if there was one. -/
def Reading.fault? {σ : Type} (r : Reading σ) : Option Fault :=
  match r.ending with
  | .ok .. => none
  | .error e _ => some e

theorem Reading.returned_eq {σ : Type} (r : Reading σ) :
    r.returned = match r.fault? with
      | none => .ok r.settings
      | some e => .error e := by
  unfold Reading.returned Reading.fault?
  cases r.ending <;> rfl

theorem fault?_shift {σ : Type} [CharStream σ] (d n : Nat) (s : σ) :
    (items (n + d) s).fault? = (items n s).fault? := by
  rw [items_shift]
  unfold Reading.fault?
  dsimp only
  cases (items n s).ending <;> rfl

/-- The same items were read but for the numbers of their lines, and reading them ended alike. -/
structure Relocated {σ τ : Type} (f : Nat → Nat) (r : Reading σ) (r' : Reading τ) : Prop where
  same_items : r'.items = r.items.map (·.relocate f)
  same_fault : r'.fault? = r.fault?

namespace Relocated

variable {σ τ : Type} {f f' : Nat → Nat}

theorem warnings {r : Reading σ} {r' : Reading τ} (h : Relocated f r r') :
    r'.warnings = r.warnings.map (·.relocate f) := by
  simp [Reading.warnings, h.same_items, List.filterMap_map, List.map_filterMap,
    warning?_relocate]

theorem settings {r : Reading σ} {r' : Reading τ} (h : Relocated f r r') :
    r'.settings = r.settings.map (·.relocate f) := by
  simp [Reading.settings, h.same_items, List.filterMap_map, List.map_filterMap,
    setting?_relocate]

theorem returned {r : Reading σ} {r' : Reading τ} (h : Relocated f r r') :
    r'.returned = r.returned.map (·.map (·.relocate f)) := by
  rw [Reading.returned_eq, Reading.returned_eq, h.same_fault, h.settings]
  cases r.fault? <;> rfl

variable [CharStream σ] [CharStream τ]

/-- Read from lines further down. -/
theorem shift {s : σ} {s' : τ} {d k : Nat} (h : Relocated f (items 0 s) (items 0 s'))
    (hf : ∀ n, f' (n + d) = f n + k) : Relocated f' (items d s) (items k s') := by
  constructor
  · rw [← Nat.zero_add d, ← Nat.zero_add k, items_shift, items_shift]
    dsimp only
    rw [h.same_items, List.map_map, List.map_map]
    apply List.map_congr_left
    rintro (⟨line, key, value, ignored⟩ | ⟨line, key, rest⟩) - <;>
      simp [Item.shift, Item.relocate, hf]
  · rw [← Nat.zero_add d, ← Nat.zero_add k, fault?_shift, fault?_shift, h.same_fault]

end Relocated

/-! ## Statements on a line -/

section Lines

variable {x x' : Text} (hx : EndsLine x) (hx' : EndsLine x')

include hx hx'

theorem alike_scalar :
    Scan.Alike (Stack.OnLine x x') scalar (fun _ => Stack.OnLine x x') := by
  refine .peek hx hx' (fun c hquote hquote' => ?_) fun c hc => ?_
  · cases c with
    | none => exact .pure fun _ _ h => h
    | some c =>
      dsimp only
      split
      · next hc => exact absurd (congrArg some hc) hquote
      split
      · next hc => exact absurd (congrArg some hc) hquote'
      split
      · exact (Scan.Alike.boolean hx hx').bind fun _ => .pure fun _ _ h => h
      split
      · exact (Scan.Alike.signed hx hx').bind fun _ => .pure fun _ _ h => h
      · exact .pure fun _ _ h => h
  · rcases endsLine_iff.1 hc with rfl | rfl <;> rfl

theorem alike_assignment (n : Nat) (key : Text) :
    Scan.Alike (Stack.OnLine x x') (assignment n key) (fun _ => Stack.BehindLine x x') := by
  have hpass : Scan.Alike (Stack.OnLine x x') (passOver isInline) (fun _ => Stack.OnLine x x') := by
    rw [Stack.passOver_eq_span]
    exact .span hx hx' fun _ => isInline_of_endsLine
  have hequals : ∀ c ∈ ['='], endsLine c = false := by simp [endsLine]
  refine hpass.bind fun _ => (Scan.Alike.exactly hx hx' hequals).bind fun present => ?_
  split
  · refine hpass.bind fun _ => (alike_scalar hx hx').bind fun value => ?_
    cases value with
    | none =>
      exact .line hx hx' (fun rest => Item.setting n key (.bare rest.trimEnd) none) fun _ => rfl
    | some value =>
      exact .line hx hx'
        (fun rest => Item.setting n key value (if rest.isBlank then none else some rest)) fun _ => rfl
  · exact .line hx hx' (fun rest => Item.stray n key rest) fun _ => rfl

/-- Where a word begins there is a statement, which is read to the end of the line. -/
theorem alike_keyed (n : Nat) {c : Char} {l : Text} (hl : PlainLine (c :: l))
    (hc : isBlank c = false) :
    Outcome.Agree (fun _ => False) (fun _ _ => True)
      (fun a s s' => (∃ item, a = (n + 1, some item) ∧ item.line = n) ∧ Stack.BehindLine x x' s s')
      ((keyed n).run (⟨c :: l ++ x⟩ : Stack)) ((keyed n).run (⟨c :: l ++ x'⟩ : Stack)) := by
  obtain ⟨w, y, rfl, hw, hy⟩ := exists_span (! isBlank ·) l
  have hword : ∀ d ∈ c :: w, (! isBlank d) = true :=
    List.forall_mem_cons.2 ⟨by rw [hc, Bool.not_false], hw⟩
  have hend : ∀ d, endsLine d = true → (! isBlank d) = false := by
    intro d hd
    rw [isBlank_of_endsLine hd, Bool.not_true]
  have hrun {z : Text} (hz : EndsLine z) :
      word.run (⟨c :: (w ++ y) ++ z⟩ : Stack) = .ok (some (c :: w)) ⟨y ++ z⟩ := by
    rw [← List.cons_append, List.append_assoc, word]
    exact Stack.nonemptySpan_run hword (hz.head?_append hend hy) (List.cons_ne_nil c w)
  rw [keyed, Scan.run_bind, Scan.run_bind, hrun hx, hrun hx', Outcome.bind_ok, Outcome.bind_ok]
  dsimp only
  rw [Scan.run_bind, Scan.run_bind]
  have hy : PlainLine y := PlainLine.right (u := c :: w) hl
  apply (alike_assignment hx hx' n (c :: w) ⟨y, hy, rfl, rfl⟩).bind
  intro item s s' hitem hs
  exact .ok ⟨⟨item, rfl, (line_of_assignment hitem).1⟩, hs⟩

end Lines

/-! ## Documents line by line -/

section Documents

variable {n m : Nat} {t x x' l : Text} {f : Nat → Nat}

theorem items_nil (n : Nat) : items n (⟨[]⟩ : Stack) = { items := [], ending := .ok n ⟨[]⟩ } := by
  rw [items_eq, run_statement, dropCommentsFrom_nil, Outcome.bind_ok, keyed_nil]

theorem items_of_dropComments {s s' : Stack} (h : dropCommentsFrom n s = dropCommentsFrom m s') :
    items n s = items m s' := by
  rw [items_eq, items_eq m, run_statement, run_statement, h]

/-- Blanks before a document only raise the numbers of its lines. -/
theorem items_blanks (ht : ∀ c ∈ t, isBlank c = true) :
    items n (⟨t ++ x⟩ : Stack) = items (n + t.count '\n') ⟨x⟩ :=
  items_of_dropComments (dropCommentsFrom_blanks ht)

theorem items_lineFeed (n : Nat) (x : Text) :
    items n (⟨'\n' :: x⟩ : Stack) = items (n + 1) ⟨x⟩ :=
  items_blanks (t := ['\n']) (by simp; decide)

/-- A carriage return makes no difference to an empty line. -/
theorem items_return_lineFeed (n : Nat) (x : Text) :
    items n (⟨'\r' :: '\n' :: x⟩ : Stack) = items (n + 1) ⟨x⟩ :=
  items_blanks (t := ['\r', '\n']) (by simp; decide)

/-- A comment at the front of a document is left out with the end of its line. -/
theorem items_comment (hl : ∀ c ∈ l, endsLine c = false) (hx : EndsLine x) :
    items n (⟨'#' :: (l ++ x)⟩ : Stack) = items (n + 1) ⟨x.tail⟩ := by
  obtain ⟨r, hline, -⟩ := Stack.line_run_tail (endsLine_of_mem_comment hl) hx
  exact items_of_dropComments (dropCommentsFrom_comment hline)

theorem relocated_nil (f : Nat → Nat) (n m : Nat) :
    Relocated f (items n (⟨[]⟩ : Stack)) (items m (⟨[]⟩ : Stack)) := by
  rw [items_nil, items_nil]
  exact ⟨rfl, rfl⟩

/-- Two documents that begin with the same line, which is not blank: if what follows it says the same,
then so do the two. -/
theorem relocated_line (hx : EndsLine x) (hx' : EndsLine x') (hl : PlainLine l)
    (hblank : l.isBlank = false) (hf : f 0 = 0)
    (h : Relocated f (items 1 (⟨x.tail⟩ : Stack)) (items 1 (⟨x'.tail⟩ : Stack))) :
    Relocated f (items 0 (⟨l ++ x⟩ : Stack)) (items 0 (⟨l ++ x'⟩ : Stack)) := by
  obtain ⟨blanks, y, rfl, hblanks, hy⟩ := exists_span isBlank l
  have hcount : blanks.count '\n' = 0 :=
    count_lineFeed fun c hc => (hl c (List.mem_append_left y hc)).1
  have hl := hl.right
  rw [List.append_assoc, List.append_assoc, items_blanks hblanks, items_blanks hblanks, hcount]
  cases y with
  | nil =>
    rw [List.append_nil, Text.isBlank, List.all_eq_false] at hblank
    obtain ⟨c, hc, hnot⟩ := hblank
    exact absurd (hblanks c hc) hnot
  | cons c w =>
    have hc : isBlank c = false := hy c rfl
    by_cases hcomment : c = '#'
    · -- a comment, which says nothing
      subst hcomment
      have hw : ∀ c ∈ w, endsLine c = false := fun c hc => (hl c (List.mem_cons_of_mem _ hc)).1
      rw [List.cons_append, List.cons_append, items_comment hw hx, items_comment hw hx']
      exact h
    · -- a statement, which is the same in both, and what follows it
      have hkeyed := alike_keyed hx hx' 0 hl hc
      have hrun (z : Text) :
          (statement 0).run (⟨c :: w ++ z⟩ : Stack) = (keyed 0).run ⟨c :: w ++ z⟩ := by
        rw [run_statement, List.cons_append, dropCommentsFrom_statement hc hcomment, Outcome.bind_ok]
      rw [items_eq, items_eq 0 (⟨c :: w ++ x'⟩ : Stack), hrun, hrun]
      generalize (keyed 0).run (⟨c :: w ++ x⟩ : Stack) = o at hkeyed ⊢
      generalize (keyed 0).run (⟨c :: w ++ x'⟩ : Stack) = o' at hkeyed ⊢
      cases hkeyed with
      | excused hfalse => exact hfalse.elim
      | error _ => exact ⟨rfl, rfl⟩
      | @ok a s s' hs =>
        obtain ⟨⟨item, rfl, hitem⟩, hs, hs'⟩ := hs
        obtain ⟨_⟩ := s
        obtain ⟨_⟩ := s'
        subst hs hs'
        refine ⟨?_, h.same_fault⟩
        have hfixed : item.relocate f = item := Item.relocate_of_line (by rw [hitem, hf])
        rw [List.map_cons, hfixed]
        exact congrArg (item :: ·) h.same_items

end Documents

/-! ## Documents with carriage returns -/

/-- Lines are counted twice unless they are blank. The induction goes from one line to the next. -/
theorem relocated_crlf {t : Text} (ht : ∀ c ∈ t, c ≠ '\r' ∧ c ≠ '"' ∧ c ≠ '\'') :
    Relocated (fun n => n + t.nonblankBefore n) (items 0 (⟨t⟩ : Stack))
      (items 0 (⟨crlf t⟩ : Stack)) := by
  induction hlen : t.length using Nat.strongRecOn generalizing t with
  | ind i ih =>
    subst hlen
    obtain ⟨l, x, rfl, hl, hx⟩ := exists_line t
    have hplain : PlainLine l := fun c hc => ⟨hl c hc, (ht c (List.mem_append_left x hc)).2⟩
    cases x with
    | nil =>
      -- the last line
      have hnil : EndsLine [] := by simp [EndsLine]
      rw [List.append_nil, crlf_of_line hl, ← List.append_nil l]
      by_cases hblank : l.isBlank = true
      · rw [items_blanks (List.all_eq_true.1 hblank)]
        exact relocated_nil ..
      · exact relocated_line hnil hnil hplain (Bool.eq_false_iff.2 hblank) rfl (relocated_nil ..)
    | cons e u =>
      obtain rfl : e = '\n' := by
        refine (endsLine_iff.1 (hx e rfl)).resolve_right ?_
        exact (ht e (by simp)).1
      rw [crlf_append_line hl]
      have hu := ih u.length (by simp; omega) (fun c hc => ht c (by simp [hc])) rfl
      by_cases hblank : l.isBlank = true
      · -- a blank line is counted once
        have hall := List.all_eq_true.1 hblank
        rw [items_blanks hall, items_blanks hall, count_lineFeed hl, items_lineFeed,
          items_return_lineFeed]
        refine hu.shift fun n => ?_
        rw [nonblankBefore_append_line hl, if_pos hblank]
        omega
      · -- a carriage return ends any other line, and behind it the line feed ends an empty one
        have hends : EndsLine ('\r' :: '\n' :: crlf u) := by simp [EndsLine, endsLine]
        refine relocated_line hx hends hplain (Bool.eq_false_iff.2 hblank) rfl ?_
        rw [List.tail_cons, List.tail_cons, items_lineFeed]
        refine hu.shift fun n => ?_
        rw [nonblankBefore_append_line hl, if_neg hblank]
        omega

/-- **Lines that end with a carriage return and a line feed are counted twice, unless they are blank.**
Take a document without carriage returns and quotes, and write a carriage return before every line feed.
Reading it leads to the same settings, warnings and fault as before, but for the numbers of the lines:
each is higher by the number of the lines above it that are not blank. -/
theorem read_crlf {t : Text} (ht : ∀ c ∈ t, c ≠ '\r' ∧ c ≠ '"' ∧ c ≠ '\'') :
    let f (line : Nat) : Nat := line + t.nonblankBefore (line - 1)
    (read (⟨crlf t⟩ : Passage)).warnings =
        (read (⟨t⟩ : Passage)).warnings.map (·.relocate f) ∧
      (read (⟨crlf t⟩ : Passage)).returned =
        (read (⟨t⟩ : Passage)).returned.map (·.map (·.relocate f)) := by
  intro f
  have hcount (n : Nat) : f (n + 1) = n + t.nonblankBefore n + 1 := by
    simp only [f, Nat.add_sub_cancel]
    omega
  have h : Relocated f (items 1 (⟨t⟩ : Stack)) (items 1 (⟨crlf t⟩ : Stack)) :=
    (relocated_crlf ht).shift hcount
  rw [warnings_passage, warnings_passage, returned_passage, returned_passage]
  exact ⟨h.warnings, h.returned⟩

/-- A blank line, a comment and a line without a value before the last one, which has the number `4`
without carriage returns. -/
theorem read_crlf_fourth_line :
    let t : Text := ['\n', '#', '\n', 'k', '\n', 'b', ' ', '=', ' ', '1']
    (∀ c ∈ t, c ≠ '\r' ∧ c ≠ '"' ∧ c ≠ '\'') ∧
      (read (⟨t⟩ : Passage)).warnings = [.noValue 3 ['k'] []] ∧
      (read (⟨t⟩ : Passage)).returned = .ok [{ line := 4, key := ['b'], value := .integer 1 }] ∧
      (read (⟨crlf t⟩ : Passage)).warnings = [.noValue 4 ['k'] []] ∧
      (read (⟨crlf t⟩ : Passage)).returned =
        .ok [{ line := 6, key := ['b'], value := .integer 1 }] := by
  intro t
  have ht : ∀ c ∈ t, c ≠ '\r' ∧ c ≠ '"' ∧ c ≠ '\'' := by simp [t]
  have hwarnings : (read (⟨t⟩ : Passage)).warnings = [.noValue 3 ['k'] []] := by decide +kernel
  have hreturned : (read (⟨t⟩ : Passage)).returned =
      .ok [{ line := 4, key := ['b'], value := .integer 1 }] := by decide +kernel
  obtain ⟨hw, hr⟩ := read_crlf ht
  rw [hwarnings] at hw
  rw [hreturned] at hr
  exact ⟨ht, hwarnings, hreturned, hw, hr⟩

/-- Two lines, of which the second is given the number `3` if a carriage return ends the first. -/
theorem read_crlf_second_line :
    let t : Text := ['a', ' ', '=', ' ', '1', '\n', 'b', ' ', '=', ' ', '2', '\n']
    (∀ c ∈ t, c ≠ '\r' ∧ c ≠ '"' ∧ c ≠ '\'') ∧
      (read (⟨t⟩ : Passage)).returned = .ok
        [{ line := 1, key := ['a'], value := .integer 1 },
          { line := 2, key := ['b'], value := .integer 2 }] ∧
      (read (⟨crlf t⟩ : Passage)).returned = .ok
        [{ line := 1, key := ['a'], value := .integer 1 },
          { line := 3, key := ['b'], value := .integer 2 }] ∧
      (read (⟨crlf t⟩ : Passage)).returned ≠ (read (⟨t⟩ : Passage)).returned := by
  refine ⟨by simp, ?_, ?_, ?_⟩
  · decide +kernel
  · decide +kernel
  · decide +kernel

end Settings

end Rescan
