import Rescan.Proofs.Contained
import Rescan.Proofs.Settings.Passing
import Rescan.Proofs.Settings.Transfer

/-!
# Documents put together from others

The end of a line is a place at which a document can be cut in two. What is read before it does not
depend on what follows, and what follows is read as a document of its own, except that its lines are
counted on.

## Main definitions

* `Item.shift`, `Setting.shift`, `Warning.shift`: the same on a line further down.

## Main statements

* `dropCommentsFrom_blanks`, `dropCommentsFrom_comment`: what is left out before a statement.
* `items_shift`: the same text from a line further down.
* `items_append`: the items of two texts, the first of which is terminated.
* `read_append`: two documents, one after the other.
-/

namespace Rescan.Settings

open CharStream Text

/-! ## Blanks and comments -/

/-- A statement without the blanks and comments before it. -/
def keyed {σ : Type} [CharStream σ] (n : Nat) : Scan σ (Nat × Option Item) := do
  match ← word with
  | none => return (n, none)
  | some key => return (n + 1, some (← assignment n key))

theorem run_statement {σ : Type} [CharStream σ] (n : Nat) (s : σ) :
    (statement n).run s = (dropCommentsFrom n s).bind fun m => (keyed m).run := rfl

theorem keyed_nil (n : Nat) : (keyed n).run (⟨[]⟩ : Stack) = .ok (n, none) ⟨[]⟩ := by
  have hword : word.run (⟨[]⟩ : Stack) = .ok none ⟨[]⟩ := Stack.nonemptySpan_absent (by simp)
  simp [keyed, hword]

section Comments

variable {n : Nat} {t x : Text}

/-- Blanks only raise the number of the line. -/
theorem dropCommentsFrom_blanks (ht : ∀ c ∈ t, isBlank c = true) :
    dropCommentsFrom n (⟨t ++ x⟩ : Stack) = dropCommentsFrom (n + t.count '\n') ⟨x⟩ := by
  rw [dropCommentsFrom_eq, dropCommentsFrom_eq (n + t.count '\n'), Stack.passOver_eq_span,
    Stack.span_run_append ht]
  cases (span isBlank).run (⟨x⟩ : Stack) with
  | error e s => rfl
  | ok blanks s =>
    simp only [Outcome.map_ok, Outcome.bind_ok, List.count_append, Nat.add_assoc]

/-- Where there is no blank, none is left out. -/
theorem passOver_isBlank (hx : ∀ c ∈ x.head?, isBlank c = false) :
    (passOver isBlank).run (⟨x⟩ : Stack) = .ok [] ⟨x⟩ := by
  rw [Stack.passOver_eq_span]
  exact Stack.span_run (t := []) (by simp) hx

/-- A statement begins here, and it is left where it is. -/
theorem dropCommentsFrom_statement {c : Char} (hc : isBlank c = false) (hne : c ≠ '#') :
    dropCommentsFrom n (⟨c :: x⟩ : Stack) = .ok n ⟨c :: x⟩ := by
  rw [dropCommentsFrom_eq, passOver_isBlank (by simpa using hc)]
  simp [hne]

theorem dropCommentsFrom_nil : dropCommentsFrom n (⟨[]⟩ : Stack) = .ok n ⟨[]⟩ := by
  rw [dropCommentsFrom_eq, passOver_isBlank (by simp)]
  simp

/-- A comment is left out with its line, and the end of the line is counted. -/
theorem dropCommentsFrom_comment {l : Option Text} {s : Stack}
    (h : line.run (⟨'#' :: t⟩ : Stack) = .ok l s) :
    dropCommentsFrom n (⟨'#' :: t⟩ : Stack) = dropCommentsFrom (n + 1) s := by
  rw [dropCommentsFrom_eq, passOver_isBlank (by simp; decide)]
  simp [h]

/-- A comment is all of a line if what stands behind its sign is. -/
theorem endsLine_of_mem_comment {l : Text} (hl : ∀ c ∈ l, endsLine c = false) :
    ∀ c ∈ '#' :: l, endsLine c = false :=
  List.forall_mem_cons.2 ⟨rfl, hl⟩

end Comments

/-! ## The same further down -/

/-- The item, `d` lines further down. -/
def Item.shift (d : Nat) : Item → Item
  | setting line key value ignored => setting (line + d) key value ignored
  | stray line key rest => stray (line + d) key rest

/-- The setting, `d` lines further down. -/
def Setting.shift (d : Nat) (x : Setting) : Setting :=
  { x with line := x.line + d }

/-- The warning, `d` lines further down. -/
def Warning.shift (d : Nat) : Warning → Warning
  | ignored line rest value => ignored (line + d) rest value
  | noValue line key rest => noValue (line + d) key rest

theorem setting?_shift (d : Nat) (item : Item) :
    (item.shift d).setting? = item.setting?.map (·.shift d) := by
  cases item <;> rfl

theorem warning?_shift (d : Nat) (item : Item) :
    (item.shift d).warning? = item.warning?.map (·.shift d) := by
  cases item with
  | stray line key rest => rfl
  | setting line key value rest => cases rest <;> rfl

/-- Actions that begin alike differ by what is applied to the value, if what follows does. -/
theorem run_bind_map {σ α β γ : Type} {x : Scan σ α} {g : α → Scan σ β} {g' : α → Scan σ γ}
    {f : β → γ} (h : ∀ a s, (g' a).run s = ((g a).run s).map f) (s : σ) :
    (x >>= g').run s = ((x >>= g).run s).map f := by
  rw [Scan.run_bind, Scan.run_bind]
  cases x.run s with
  | error e s' => rfl
  | ok a s' => exact h a s'

section Shift

variable {σ : Type} [CharStream σ] (d : Nat)

theorem dropCommentsFrom_shift (n : Nat) (s : σ) :
    dropCommentsFrom (n + d) s = (dropCommentsFrom n s).map (· + d) := by
  induction hleft : Source.left s using Nat.strongRecOn generalizing n s with
  | ind i ih =>
    subst hleft
    rw [dropCommentsFrom_eq, dropCommentsFrom_eq n]
    cases hs₁ : (passOver isBlank).run s with
    | error e s₁ => rfl
    | ok blanks s₁ =>
      simp only [Outcome.bind_ok]
      cases hs₂ : peek.run s₁ with
      | error e s₂ => rfl
      | ok c s₂ =>
        simp only [Outcome.bind_ok]
        have hadd : n + d + blanks.count '\n' = n + blanks.count '\n' + d := Nat.add_right_comm ..
        split
        · next hc =>
          -- a comment, behind which the lines are counted on from the same place
          subst hc
          cases hs₃ : line.run s₂ with
          | error e s₃ => rfl
          | ok l s₃ =>
            simp only [Outcome.bind_ok, hadd, Nat.add_right_comm _ d 1]
            exact ih _ (left_comment hs₁ hs₂ hs₃) _ s₃ rfl
        · rw [hadd]
          rfl

theorem assignment_shift (n : Nat) (key : Text) (s : σ) :
    (assignment (n + d) key).run s = ((assignment n key).run s).map (·.shift d) := by
  unfold assignment
  refine run_bind_map (fun _ => run_bind_map fun present => ?_) s
  cases present with
  | false => exact run_bind_map fun _ _ => rfl
  | true =>
    refine run_bind_map fun _ => run_bind_map fun value => run_bind_map fun rest s' => ?_
    cases value <;> rfl

theorem statement_shift (n : Nat) (s : σ) :
    (statement (n + d)).run s =
      ((statement n).run s).map fun a => (a.1 + d, a.2.map (·.shift d)) := by
  rw [run_statement, run_statement, dropCommentsFrom_shift]
  cases dropCommentsFrom n s with
  | error e s₁ => rfl
  | ok m s₁ =>
    refine run_bind_map (fun key s₂ => ?_) s₁
    cases key with
    | none => rfl
    | some key =>
      dsimp only
      rw [Scan.run_bind, Scan.run_bind, assignment_shift, Nat.add_right_comm]
      cases (assignment m key).run s₂ <;> rfl

/-- Read from a line further down, the items are the same, further down. -/
theorem items_shift (n : Nat) (s : σ) :
    items (n + d) s = { items := (items n s).items.map (·.shift d)
                        ending := (items n s).ending.map (· + d) } := by
  induction hleft : Source.left s using Nat.strongRecOn generalizing n s with
  | ind i ih =>
    subst hleft
    rw [items_eq, items_eq n, statement_shift]
    cases hs : (statement n).run s with
    | error e s' => rfl
    | ok a s' =>
      obtain ⟨m, item⟩ := a
      cases item with
      | none => rfl
      | some item =>
        simp only [Outcome.map_ok, Option.map_some, ih _ (left_statement hs) m s' rfl,
          List.map_cons]

end Shift

/-! ## Statements in a terminated text -/

theorem isInline_of_endsLine {c : Char} (h : endsLine c = true) : isInline c = false := by
  rcases endsLine_iff.1 h with rfl | rfl <;> decide

theorem isBlank_of_endsLine {c : Char} (h : endsLine c = true) : isBlank c = true := by
  rcases endsLine_iff.1 h with rfl | rfl <;> decide

theorem contained_scalar :
    Scan.Contained Terminated (scalar : Scan Stack (Option Scalar)) (fun _ => Terminated) := by
  refine .bind .peek fun c => ?_
  cases c with
  | none => exact .pure fun _ h => h.2
  | some c =>
    dsimp only
    split
    · next hc =>
      subst hc
      have hquoted : Scan.Contained _ (delimited (.quoted '"') : Scan Stack (Option Text)) _ :=
        .delimited (by decide) (by decide)
      exact hquoted.bind fun _ => .pure fun _ h => h
    split
    · next hc =>
      subst hc
      have hdoubled : Scan.Contained _ (delimited (.doubling '\'') : Scan Stack (Option Text)) _ :=
        .delimited (by decide) (by decide)
      exact hdoubled.bind fun _ => .pure fun _ h => h
    split
    · exact (Scan.Contained.boolean.mono fun _ h => h.2).bind fun _ => .pure fun _ h => h
    split
    · exact (Scan.Contained.signed.mono fun _ h => h.2).bind fun _ => .pure fun _ h => h
    · exact .pure fun _ h => h.2

theorem contained_assignment (n : Nat) (key : Text) :
    Scan.Contained Terminated (assignment n key : Scan Stack Item)
      (fun _ t => t ≠ [] → Terminated t) := by
  have hpass :
      Scan.Contained Terminated (passOver isInline : Scan Stack Text) (fun _ => Terminated) := by
    rw [Stack.passOver_eq_span]
    exact .span fun _ => isInline_of_endsLine
  have hequals : ∀ c ∈ ['='], endsLine c = false := by simp [endsLine]
  refine hpass.bind fun _ => (Scan.Contained.exactly hequals).bind fun present => ?_
  split
  · refine hpass.bind fun _ => contained_scalar.bind fun value => ?_
    refine Scan.Contained.line.bind fun rest => ?_
    cases value <;> exact .pure fun _ h => h
  · exact Scan.Contained.line.bind fun _ => .pure fun _ h => h

/-- Blanks and comments in a terminated text: either they are all of it, or a statement begins
behind them. The induction goes from one comment to the next. -/
theorem dropCommentsFrom_terminated (n : Nat) {t : Text} (ht : t ≠ [] → Terminated t) :
    ∃ m, (dropCommentsFrom n (⟨t⟩ : Stack) = .ok m ⟨[]⟩ ∧
        ∀ u, dropCommentsFrom n (⟨t ++ u⟩ : Stack) = dropCommentsFrom m ⟨u⟩) ∨
      ∃ c x, isBlank c = false ∧ Terminated (c :: x) ∧
        ∀ u, dropCommentsFrom n (⟨t ++ u⟩ : Stack) = .ok m ⟨c :: x ++ u⟩ := by
  induction hlen : t.length using Nat.strongRecOn generalizing n t with
  | ind i ih =>
    subst hlen
    obtain ⟨blanks, x, rfl, hblanks, hx⟩ := exists_span isBlank t
    cases x with
    | nil =>
      -- blanks only, which blanks at the front of what follows join
      refine ⟨n + blanks.count '\n', .inl ⟨?_, fun u => ?_⟩⟩
      · rw [dropCommentsFrom_blanks hblanks, dropCommentsFrom_nil]
      · rw [List.append_nil, dropCommentsFrom_blanks hblanks]
    | cons c x =>
      have hterm : Terminated (c :: x) := (ht (by simp)).right (List.cons_ne_nil c x)
      have hc : isBlank c = false := hx c rfl
      by_cases hcomment : c = '#'
      · -- a comment, and whatever follows it in the text
        subst hcomment
        have hterm : Terminated x := Terminated.of_append (t := ['#']) hterm (by simp [endsLine])
        obtain ⟨l, y, rfl, hl, hy⟩ := exists_line x
        have hterm := hterm.of_append hl
        cases y with
        | nil => exact absurd rfl hterm.ne_nil
        | cons e y =>
          have he : endsLine e = true := hy e rfl
          have hlt : y.length < (blanks ++ '#' :: (l ++ e :: y)).length := by
            simp only [List.length_append, List.length_cons]
            omega
          have hstep (u : Text) :
              dropCommentsFrom n (⟨blanks ++ '#' :: (l ++ e :: y) ++ u⟩ : Stack) =
                dropCommentsFrom (n + blanks.count '\n' + 1) ⟨y ++ u⟩ := by
            simp only [List.append_assoc, List.cons_append]
            have hline : line.run (⟨'#' :: (l ++ e :: (y ++ u))⟩ : Stack) = _ :=
              Stack.line_run (endsLine_of_mem_comment hl) he
            rw [dropCommentsFrom_blanks hblanks, dropCommentsFrom_comment hline]
          have hstep' := hstep []
          rw [List.append_nil, List.append_nil] at hstep'
          simp only [hstep, hstep']
          exact ih _ hlt _ (Terminated.right (t := [e]) hterm) rfl
      · refine ⟨n + blanks.count '\n', .inr ⟨c, x, hc, hterm, fun u => ?_⟩⟩
        rw [List.append_assoc, dropCommentsFrom_blanks hblanks, List.cons_append,
          dropCommentsFrom_statement hc hcomment]

/-- Where a word begins in a terminated text, there is a statement. -/
theorem contained_keyed (n : Nat) :
    Scan.Contained (fun t => Terminated t ∧ ∀ c ∈ t.head?, isBlank c = false)
      (keyed n : Scan Stack (Nat × Option Item))
      (fun a t => a.2.isSome ∧ (t ≠ [] → Terminated t)) := by
  have hword : Scan.Contained (fun t => Terminated t ∧ ∀ c ∈ t.head?, isBlank c = false)
      (word : Scan Stack (Option Text)) (fun key t => key.isSome ∧ Terminated t) := by
    intro t a rest ht hx
    have hcontained : Scan.Contained Terminated (word : Scan Stack (Option Text)) _ :=
      .nonemptySpan fun c hc => by rw [isBlank_of_endsLine hc, Bool.not_true]
    obtain ⟨hr, hu⟩ := hcontained ht.1 hx
    obtain ⟨v, y, rfl, hv, hy⟩ := exists_span (! isBlank ·) t
    have hne : v ≠ [] := by
      intro hnil
      subst hnil
      cases y with
      | nil => exact absurd rfl ht.1.ne_nil
      | cons c y => exact absurd (ht.2 c rfl) (by simpa using hy c rfl)
    rw [word, Stack.nonemptySpan_run hv hy hne] at hx
    cases hx
    exact ⟨⟨rfl, hr⟩, hu⟩
  refine hword.bind fun key => ?_
  cases key with
  | none =>
    intro t a rest ht
    cases ht.1
  | some key =>
    exact ((contained_assignment n key).mono fun _ h => h.2).bind fun _ => .pure fun _ h => ⟨rfl, h⟩

/-- Where no statement is left in a terminated text, the next one is the first of what follows. -/
theorem statement_none {n m : Nat} {t : Text} {s : Stack} (ht : t ≠ [] → Terminated t)
    (h : (statement n).run (⟨t⟩ : Stack) = .ok (m, none) s) (u : Text) :
    (statement n).run (⟨t ++ u⟩ : Stack) = (statement m).run ⟨u⟩ := by
  obtain ⟨k, ⟨hall, hu⟩ | ⟨c, x, hc, hterm, hu⟩⟩ := dropCommentsFrom_terminated n ht
  · rw [run_statement, hall, Outcome.bind_ok, keyed_nil] at h
    cases h
    rw [run_statement, hu, run_statement]
  · -- a statement is left
    have hstart := hu []
    rw [List.append_nil, List.append_nil] at hstart
    rw [run_statement, hstart] at h
    have hsome := (contained_keyed k ⟨hterm, by simpa using hc⟩ h).1.1
    cases hsome

/-- A statement that begins in a terminated text ends there. -/
theorem statement_some {n m : Nat} {t : Text} {item : Item} {s : Stack}
    (ht : t ≠ [] → Terminated t) (h : (statement n).run (⟨t⟩ : Stack) = .ok (m, some item) s) :
    (s.chars ≠ [] → Terminated s.chars) ∧
      ∀ u, (statement n).run (⟨t ++ u⟩ : Stack) = .ok (m, some item) ⟨s.chars ++ u⟩ := by
  obtain ⟨k, ⟨hall, hu⟩ | ⟨c, x, hc, hterm, hu⟩⟩ := dropCommentsFrom_terminated n ht
  · -- no statement is left
    rw [run_statement, hall, Outcome.bind_ok, keyed_nil] at h
    cases h
  · have hstart := hu []
    rw [List.append_nil, List.append_nil] at hstart
    rw [run_statement, hstart] at h
    obtain ⟨⟨-, hr⟩, hkeyed⟩ := contained_keyed k ⟨hterm, by simpa using hc⟩ h
    refine ⟨hr, fun u => ?_⟩
    rw [run_statement, hu, Outcome.bind_ok]
    exact hkeyed u

/-! ## Documents -/

/-- If a terminated text can be read to its end, then what follows it is read from the line reached
on. The induction goes from one statement of the text to the next. -/
theorem items_append {n k : Nat} {t : Text} (ht : t ≠ [] → Terminated t)
    (h : (items n (⟨t⟩ : Stack)).ending.result = .ok k) (u : Text) :
    items n (⟨t ++ u⟩ : Stack) =
      { items := (items n (⟨t⟩ : Stack)).items ++ (items k (⟨u⟩ : Stack)).items
        ending := (items k (⟨u⟩ : Stack)).ending } := by
  induction hlen : t.length using Nat.strongRecOn generalizing n t with
  | ind i ih =>
    subst hlen
    rw [items_eq n (⟨t⟩ : Stack)] at h ⊢
    cases hs : (statement n).run (⟨t⟩ : Stack) with
    | error e s =>
      rw [hs] at h
      cases h
    | ok a s =>
      rw [hs] at h
      obtain ⟨m, item⟩ := a
      cases item with
      | none =>
        -- the next statement is the first one of `u`
        cases h
        rw [items_eq, statement_none ht hs, ← items_eq]
        rfl
      | some item =>
        -- the statement is the same, and what it leaves of `t` is a shorter text
        obtain ⟨hr, hu⟩ := statement_some ht hs
        have hlt : s.chars.length < t.length := left_statement hs
        rw [items_eq, hu u]
        dsimp only
        rw [ih _ hlt hr h rfl]
        rfl

/-- Lines are counted from one on. -/
theorem pos_of_items {n k : Nat} {s : Stack} (h : (items (n + 1) s).ending.result = .ok k) :
    0 < k := by
  rw [items_shift 1 n s] at h
  cases he : (items n s).ending with
  | error e s' =>
    rw [he] at h
    cases h
  | ok m s' =>
    rw [he] at h
    cases h
    exact Nat.succ_pos m

/-- **Documents can be cut at the end of a line.** Let a text end with the character that ends a
line, and let it be read to its end without a fault, where the line `k` is reached. Whatever text
follows, the two together cause the warnings of the first and then those of the second, and they
return the settings of the first and then those of the second, or the fault of the second; what
comes from the second is `k - 1` lines further down. -/
theorem read_append {t : Text} {c : Char} (hc : t.getLast? = some c) (he : c = '\n' ∨ c = '\r')
    {k : Nat} (h : (read (⟨t⟩ : Passage)).ending.result = .ok k) (u : Text) :
    (read (⟨t ++ u⟩ : Passage)).warnings =
        (read (⟨t⟩ : Passage)).warnings ++
          (read (⟨u⟩ : Passage)).warnings.map (·.shift (k - 1)) ∧
      (read (⟨t ++ u⟩ : Passage)).returned =
        (read (⟨u⟩ : Passage)).returned.map fun settings =>
          (read (⟨t⟩ : Passage)).settings ++ settings.map (·.shift (k - 1)) := by
  rw [(read_passage t).2] at h
  have hterm : t ≠ [] → Terminated t := fun _ => ⟨c, hc, endsLine_iff.2 he⟩
  have happend := items_append hterm h u
  -- the second document is read from line `k` on, as from line one but further down
  have hk : k = 1 + (k - 1) := by
    have := pos_of_items h
    omega
  rw [hk, items_shift] at happend
  constructor
  · rw [warnings_passage, warnings_passage, warnings_passage, happend]
    simp [Reading.warnings, List.filterMap_map, List.map_filterMap, warning?_shift]
  · rw [returned_passage, returned_passage, settings_passage, happend]
    cases he : (items 1 (⟨u⟩ : Stack)).ending <;>
      simp [Reading.returned, Reading.settings, he, List.filterMap_map, List.map_filterMap,
        setting?_shift, Except.map, Outcome.result]

/-- A cut between a carriage return and a line feed, which each end a line. -/
theorem read_append_between_ends :
    let t : Text := ['a', ' ', '=', ' ', '1', '\r']
    let u : Text := ['\n', 'b', ' ', 'c']
    (read (⟨t⟩ : Passage)).ending.result = .ok 2 ∧
      (read (⟨t ++ u⟩ : Passage)).warnings = [.noValue 3 ['b'] ['c']] ∧
      (read (⟨t ++ u⟩ : Passage)).returned =
        .ok [{ line := 1, key := ['a'], value := .integer 1 }] := by
  intro t u
  have ht : (read (⟨t⟩ : Passage)).ending.result = .ok 2 := by decide +kernel
  obtain ⟨hwarnings, hreturned⟩ := read_append (t := t) rfl (.inr rfl) ht u
  refine ⟨ht, hwarnings.trans ?_, hreturned.trans ?_⟩
  · decide +kernel
  · decide +kernel

end Rescan.Settings
