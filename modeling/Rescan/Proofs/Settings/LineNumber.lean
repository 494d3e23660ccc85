import Rescan.Proofs.Integer
import Rescan.Proofs.Settings.Composition

/-!
# The numbers of the lines

Line feeds are counted in several places: among blanks one by one, and at the end of a comment and of a
statement as that line ends. What a statement contains is not looked at, and so a line feed within a
quoted value is not counted. It is the only one: the account is kept for every recognizer and every part
of a statement, and without carriage returns it is exact up to the first character of every key.

## Main definitions

* `Scan.Counts`: actions that take as many line feeds off a stack as a count goes up.
* `Item.quotedText`: the text of an item that is not looked at for line feeds.
* `keyStarts`: where the keys of a document begin.

## Main statements

* `counts_dropComments`, `counts_assignment`, `counts_statement`: what is counted, part by part.
* `line_add_quoted`: the number that is given to the line of an item.
-/

namespace Rescan

open CharStream Text

variable {σ τ α β : Type}

/-! ## Counting line feeds -/

/-- From `s` to `s'` a text was taken off the stack, and its line feeds make the difference between `d`
and `d'`. The end of the last line may be the end of the text, so where nothing is left the difference
need not be right. -/
def Stack.Counts (d : Nat) (s : Stack) (d' : Nat) (s' : Stack) : Prop :=
  ∃ v, s.chars = v ++ s'.chars ∧ (s'.chars ≠ [] → d + v.count '\n' = d')

namespace Stack.Counts

variable {d d' d'' : Nat} {s s' s'' : Stack}

theorem refl (d : Nat) (s : Stack) : Counts d s d s :=
  ⟨[], rfl, fun _ => rfl⟩

theorem trans (h : Counts d s d' s') (h' : Counts d' s' d'' s'') : Counts d s d'' s'' := by
  obtain ⟨v, hs, hv⟩ := h
  obtain ⟨w, hs', hw⟩ := h'
  refine ⟨v ++ w, by rw [hs, hs', List.append_assoc], fun hne => ?_⟩
  have hne' : s'.chars ≠ [] := by
    rw [hs']
    exact List.append_ne_nil_of_right_ne_nil w hne
  rw [List.count_append, ← Nat.add_assoc, hv hne', hw hne]

theorem of_not_mem {v : Text} (hs : s.chars = v ++ s'.chars) (hv : '\n' ∉ v) : Counts d s d s' :=
  ⟨v, hs, fun _ => by rw [List.count_eq_zero_of_not_mem hv, Nat.add_zero]⟩

/-- What was counted before makes no difference. -/
theorem add_right (h : Counts d s d' s') (k : Nat) : Counts (d + k) s (d' + k) s' := by
  obtain ⟨v, hs, hv⟩ := h
  refine ⟨v, hs, fun hne => ?_⟩
  rw [← hv hne, Nat.add_right_comm]

theorem not_mem (h : Counts d s d' s') {c : Char} (hc : c ∉ s.chars) : c ∉ s'.chars := by
  obtain ⟨v, hs, -⟩ := h
  rw [hs] at hc
  exact fun hc' => hc (List.mem_append_right v hc')

end Stack.Counts

/-- Where there is no carriage return, the action takes so many line feeds off the stack that the count
goes from `d` to what `count` says for its value. -/
def Scan.Counts (d : Nat) (x : Scan Stack α) (count : α → Nat) : Prop :=
  ∀ ⦃s a s'⦄, '\r' ∉ s.chars → x.run s = .ok a s' → Stack.Counts d s (count a) s'

namespace Scan.Counts

variable {d : Nat} {count : α → Nat} {count' : β → Nat}

theorem pure {a : α} (h : d = count a) : Counts d (Pure.pure a) count := by
  intro s a' s' _ hx
  cases hx
  rw [← h]
  exact .refl d s

theorem bind {x : Scan Stack α} {f : α → Scan Stack β} (hx : Counts d x count)
    (hf : ∀ a, Counts (count a) (f a) count') : Counts d (x >>= f) count' := by
  intro s b s'' hr hxf
  obtain ⟨a, s', h₁, h₂⟩ := Scan.run_bind_eq_ok_iff.1 hxf
  have hs := hx hr h₁
  exact hs.trans (hf a (hs.not_mem hr) h₂)

/-! ### Recognizers -/

theorem span (p : Char → Bool) :
    Counts d (span p : Scan Stack Text) (fun t => d + t.count '\n') := by
  intro s t s' _ hx
  obtain ⟨hs, -⟩ := Stack.span_eq_ok hx
  exact ⟨t, hs, fun _ => rfl⟩

/-- Where a line feed does not belong to the span, none is taken. -/
theorem span_within_line {p : Char → Bool} (hp : p '\n' = false) :
    Counts d (Rescan.span p : Scan Stack Text) (fun _ => d) := by
  intro s t s' _ hx
  obtain ⟨hs, ht⟩ := Stack.span_eq_ok hx
  have hnot : '\n' ∉ t := fun hmem => Bool.false_ne_true (hp.symm.trans (ht _ hmem))
  exact .of_not_mem hs hnot

theorem word : Counts d (word : Scan Stack (Option Text)) (fun _ => d) :=
  (span_within_line (by decide)).bind fun _ => pure rfl

theorem exactly {t : Text} (ht : '\n' ∉ t) :
    Counts d (exactly t : Scan Stack Bool) (fun _ => d) := by
  intro s a s' _ hx
  obtain ⟨x⟩ := s
  by_cases hpre : t <+: x
  · obtain ⟨y, rfl⟩ := hpre
    rw [Stack.exactly_run] at hx
    cases hx
    exact .of_not_mem rfl ht
  · rw [Stack.exactly_absent hpre] at hx
    cases hx
    exact .refl d _

theorem boolean : Counts d (boolean : Scan Stack (Option Bool)) (fun _ => d) := by
  have htruth (b : Bool) : Counts d (truth b : Scan Stack (Option Bool)) (fun _ => d) :=
    (exactly (by cases b <;> simp [truthName])).bind fun _ => pure rfl
  intro s a s' hr hx
  rw [Rescan.boolean, Scan.run_bind, Stack.peek_run, Outcome.bind_ok] at hx
  split at hx
  · exact htruth true hr hx
  · exact htruth false hr hx
  · cases hx
    exact .refl d _

theorem signed : Counts d (signed : Scan Stack (Option Int)) (fun _ => d) := by
  intro s a s' _ hx
  obtain ⟨x⟩ := s
  rw [Stack.signed_run] at hx
  split at hx
  · cases hx
    exact .refl d _
  · -- what is read is a sign and digits
    obtain ⟨n, hrange, rfl⟩ := Outcome.map_eq_ok_iff.1 hx
    unfold inRange at hrange
    split at hrange
    · cases hrange
      refine .of_not_mem (List.take_append_drop _ x).symm fun hmem => ?_
      obtain ⟨rest, -, hds, -⟩ := exists_behind_number x
      rw [take_number, List.mem_append, Option.mem_toList, sign_eq_some_iff] at hmem
      rcases hmem with ⟨-, hsign⟩ | hdigit
      · exact absurd hsign (by decide)
      · exact absurd (hds _ hdigit) (by decide)
    · cases hrange

/-- The end of a line is counted. It is a line feed, unless it is the end of the text. -/
theorem line : Counts d (line : Scan Stack (Option Text)) (fun _ => d + 1) := by
  intro s a s' hr hx
  obtain ⟨x⟩ := s
  obtain ⟨l, y, rfl, hl, hy⟩ := exists_line x
  cases y with
  | nil =>
    obtain ⟨a', hline, -⟩ := Stack.line_run_last hl
    rw [List.append_nil, hline] at hx
    cases hx
    exact ⟨l, rfl, fun hne => absurd rfl hne⟩
  | cons e y =>
    have he : endsLine e = true := hy e rfl
    rw [Stack.line_run hl he] at hx
    cases hx
    obtain rfl : e = '\n' := by
      refine (endsLine_iff.1 he).resolve_right ?_
      rintro rfl
      exact hr (by simp)
    have hcount : (l ++ ['\n']).count '\n' = 1 := by simp [count_lineFeed hl]
    exact ⟨l ++ ['\n'], by simp, fun _ => by rw [hcount]⟩

end Scan.Counts

namespace Settings

/-! ## Items and their quoted values -/

/-- The content of a quoted value, and nothing of any other. -/
def Scalar.quotedText : Scalar → Text
  | quoted content => content
  | _ => []

namespace Item

/-- The number that the reader gives to the line of an item. -/
def line : Item → Nat
  | setting line .. => line
  | stray line .. => line

def key : Item → Text
  | setting _ key .. => key
  | stray _ key .. => key

/-- The content of its value if that is quoted. -/
def quotedText : Item → Text
  | setting _ _ value _ => value.quotedText
  | stray .. => []

end Item

/-! ## Line feeds of a statement -/

section Counts

variable {d : Nat}

/-- Blanks and comments are counted in full. The induction goes from one comment to the next. -/
theorem counts_dropComments (n : Nat) :
    Scan.Counts n (dropComments n : Scan Stack Nat) (fun m => m) := by
  intro s m s' hr h
  change dropCommentsFrom n s = _ at h
  fun_induction dropCommentsFrom n s with
  | case1 => cases h
  | case2 => cases h
  | case3 => cases h
  | case4 n s blanks s₁ h₁ s₂ t s₃ h₃ h₂ ih =>
    -- a comment, and whatever follows it
    rw [Stack.passOver_eq_span] at h₁
    rw [Stack.peek_run] at h₂
    obtain ⟨-, rfl⟩ := Outcome.ok.inj h₂
    have hblanks := Scan.Counts.span isBlank (d := n) hr h₁
    have hline := hblanks.trans (Scan.Counts.line (hblanks.not_mem hr) h₃)
    exact hline.trans (ih (hline.not_mem hr) h)
  | case5 n s blanks s₁ h₁ c s₂ h₂ hc =>
    rw [Stack.passOver_eq_span] at h₁
    rw [Stack.peek_run] at h₂
    obtain ⟨-, rfl⟩ := Outcome.ok.inj h₂
    cases h
    exact Scan.Counts.span isBlank hr h₁

/-- The line feeds of a literal are those of its content. -/
theorem counts_delimited {q : Delimiters} {x : Text} {t : Option Text} {s' : Stack}
    (ho : q.opening ≠ '\n') (hc : q.closing ≠ '\n')
    (h : (delimited q).run (⟨q.opening :: x⟩ : Stack) = .ok t s') :
    Stack.Counts d ⟨q.opening :: x⟩ (d + (t.getD []).count '\n') s' := by
  rw [Stack.delimited_opened] at h
  obtain ⟨t, hcontent, rfl⟩ := Outcome.map_eq_ok_iff.1 h
  obtain ⟨rfl, -⟩ := Stack.closesAt_of_contentFrom hcontent
  refine ⟨q.opening :: (t ++ [q.closing]), by simp, fun _ => ?_⟩
  rw [List.count_cons_of_ne ho, List.count_append, List.count_singleton]
  simp [hc]

theorem counts_scalar : Scan.Counts d (scalar : Scan Stack (Option Scalar))
    (fun value => d + ((value.map Scalar.quotedText).getD []).count '\n') := by
  intro s value s' hr h
  obtain ⟨x⟩ := s
  rw [scalar, Scan.run_bind, Stack.peek_run, Outcome.bind_ok] at h
  cases x with
  | nil =>
    cases h
    exact .refl d _
  | cons c x =>
    rw [List.head?_cons] at h
    dsimp only at h
    split at h
    · next hc =>
      subst hc
      obtain ⟨t, ht, rfl⟩ := Scan.run_bind_pure_eq_ok_iff.1 h
      have hquoted := counts_delimited (d := d) (q := .quoted '"') (by decide) (by decide) ht
      cases t <;> exact hquoted
    split at h
    · next hc =>
      subst hc
      obtain ⟨t, ht, rfl⟩ := Scan.run_bind_pure_eq_ok_iff.1 h
      have hdoubled := counts_delimited (d := d) (q := .doubling '\'') (by decide) (by decide) ht
      cases t <;> exact hdoubled
    split at h
    · obtain ⟨b, hb, rfl⟩ := Scan.run_bind_pure_eq_ok_iff.1 h
      have htruth := Scan.Counts.boolean (d := d) hr hb
      cases b <;> exact htruth
    split at h
    · obtain ⟨n, hn, rfl⟩ := Scan.run_bind_pure_eq_ok_iff.1 h
      have hinteger := Scan.Counts.signed (d := d) hr hn
      cases n <;> exact hinteger
    · cases h
      exact .refl d _

/-- Of a statement its end is counted, and nothing else of what it contains. -/
theorem counts_assignment (n : Nat) (key : Text) :
    Scan.Counts n (assignment n key : Scan Stack Item)
      (fun item => n + 1 + item.quotedText.count '\n') := by
  have hpass (d : Nat) : Scan.Counts d (passOver isInline : Scan Stack Text) (fun _ => d) := by
    rw [Stack.passOver_eq_span]
    exact .span_within_line (by decide)
  refine (hpass n).bind fun _ => (Scan.Counts.exactly (by decide)).bind fun present => ?_
  split
  · refine (hpass n).bind fun _ => counts_scalar.bind fun value => ?_
    refine Scan.Counts.line.bind fun rest => ?_
    cases value <;> exact .pure (Nat.add_right_comm ..)
  · exact Scan.Counts.line.bind fun _ => .pure rfl

theorem counts_statement (n : Nat) :
    Scan.Counts n (statement n : Scan Stack (Nat × Option Item))
      (fun a => a.1 + ((a.2.map Item.quotedText).getD []).count '\n') := by
  refine (counts_dropComments n).bind fun m => Scan.Counts.word.bind fun key => ?_
  cases key with
  | none => exact .pure rfl
  | some key => exact (counts_assignment m key).bind fun _ => .pure rfl

end Counts

/-! ## Where keys begin -/

section Starts

variable [CharStream σ] [CharStream τ]

/-- The states in which the keys of the items begin. -/
def keyStarts (n : Nat) (s : σ) : List σ :=
  match _h : (statement n).run s with
  | .ok (m, some _) s' => (dropCommentsFrom n s).state :: keyStarts m s'
  | _ => []
termination_by Source.left s
decreasing_by exact left_statement _h

/-- Where keys begin, by the first statement. -/
theorem keyStarts_eq (n : Nat) (s : σ) :
    keyStarts n s = match (statement n).run s with
      | .ok (m, some _) s' => (dropCommentsFrom n s).state :: keyStarts m s'
      | _ => [] := by
  rw [keyStarts]
  cases (statement n).run s with
  | error e s' => rfl
  | ok a s' =>
    obtain ⟨m, item⟩ := a
    cases item <;> rfl

theorem line_of_assignment {n : Nat} {key : Text} {item : Item} {s s' : σ}
    (h : (assignment n key).run s = .ok item s') : item.line = n ∧ item.key = key := by
  obtain ⟨_, s₁, -, h⟩ := Scan.run_bind_eq_ok_iff.1 h
  obtain ⟨present, s₂, -, h⟩ := Scan.run_bind_eq_ok_iff.1 h
  cases present with
  | false =>
    obtain ⟨_, -, rfl⟩ := Scan.run_bind_pure_eq_ok_iff.1 h
    exact ⟨rfl, rfl⟩
  | true =>
    obtain ⟨_, s₃, -, h⟩ := Scan.run_bind_eq_ok_iff.1 h
    obtain ⟨value, s₄, -, h⟩ := Scan.run_bind_eq_ok_iff.1 h
    obtain ⟨rest, s₅, -, h⟩ := Scan.run_bind_eq_ok_iff.1 h
    cases value <;> cases h <;> exact ⟨rfl, rfl⟩

/-- A statement begins with its key, behind blanks and comments, and has the number of the line
reached there. -/
theorem begins_of_statement {n m : Nat} {item : Item} {s s' : σ}
    (h : (statement n).run s = .ok (m, some item) s') :
    ∃ s₁ s₂, (dropComments n).run s = .ok item.line s₁ ∧ word.run s₁ = .ok (some item.key) s₂ := by
  obtain ⟨k, s₁, h₁, h⟩ := Scan.run_bind_eq_ok_iff.1 h
  obtain ⟨key, s₂, h₂, h⟩ := Scan.run_bind_eq_ok_iff.1 h
  cases key with
  | none => cases h
  | some key =>
    obtain ⟨item, s₃, h₃, h⟩ := Scan.run_bind_eq_ok_iff.1 h
    cases h
    obtain ⟨rfl, rfl⟩ := line_of_assignment h₃
    exact ⟨s₁, s₂, h₁, h₂⟩

/-- Keys begin in related states. The induction goes from one statement to the next. -/
theorem forall₂_keyStarts {S : Simulation σ τ} {w : Text} {s : σ} {t : τ} (n : Nat)
    (h : S.rel w s t) (hstrict : ∀ e s', (items n s).ending = .error e s' → ¬ S.excused e) :
    List.Forall₂ (fun s t => ∃ w, S.rel w s t) (keyStarts n s) (keyStarts n t) := by
  induction hleft : Source.left s using Nat.strongRecOn generalizing n w s t with
  | ind i ih =>
    subst hleft
    have hagree := Simulation.relates_statement n h
    rw [items_eq n s] at hstrict
    rw [keyStarts_eq n s, keyStarts_eq n t]
    generalize hs : (statement n).run s = o at hagree hstrict ⊢
    generalize (statement n).run t = o' at hagree ⊢
    cases hagree with
    | excused he => exact absurd he (hstrict _ _ rfl)
    | error => exact .nil
    | @ok a s' t' hr =>
      obtain ⟨m, _ | item⟩ := a
      · exact .nil
      · -- the comments end in related states, and so does the statement
        obtain ⟨s₁, -, h₁, -⟩ := begins_of_statement hs
        change dropCommentsFrom n s = _ at h₁
        obtain ⟨t₁, ht₁, hstart⟩ := (Simulation.agree_dropCommentsFrom n h).exists_of_ok h₁
        rw [h₁, ht₁]
        obtain ⟨w', hr⟩ := hr
        exact .cons hstart (ih _ (left_statement hs) m hr hstrict rfl)

/-- Where there is an item, the first one comes from a statement. -/
theorem statement_of_items {n k : Nat} {s : σ} {item : Item}
    (h : (items n s).items[k]? = some item) :
    ∃ m first s', (statement n).run s = .ok (m, some first) s' := by
  rw [items_eq] at h
  cases hrun : (statement n).run s with
  | error e s' =>
    rw [hrun] at h
    cases h
  | ok a s' =>
    rw [hrun] at h
    obtain ⟨m, _ | first⟩ := a
    · cases h
    · exact ⟨m, first, s', rfl⟩

end Starts

/-- The item at index `k` begins with its key, and the line feeds before that are those counted in the
number of its line and those in the quoted values of the items before it. -/
theorem counts_keyStarts {n k : Nat} {s : Stack} {item : Item} (hs : '\r' ∉ s.chars)
    (hk : (items n s).items[k]? = some item) :
    ∃ s₁, (keyStarts n s)[k]? = some s₁ ∧ item.key ≠ [] ∧ item.key <+: s₁.chars ∧
      Stack.Counts n s
        (item.line + (((items n s).items.take k).flatMap Item.quotedText).count '\n') s₁ := by
  induction k generalizing n s with
  | zero =>
    obtain ⟨m, first, s', hrun⟩ := statement_of_items hk
    rw [items_eq, hrun] at hk
    cases hk
    obtain ⟨s₁, s₂, h₁, h₂⟩ := begins_of_statement hrun
    obtain ⟨hne, hkey⟩ := Stack.nonemptySpan_eq_some h₂
    have hcounts := counts_dropComments n hs h₁
    change dropCommentsFrom n s = _ at h₁
    rw [keyStarts_eq, hrun, h₁]
    exact ⟨s₁, rfl, hne, ⟨s₂.chars, hkey.symm⟩, hcounts⟩
  | succ k ih =>
    obtain ⟨m, first, s', hrun⟩ := statement_of_items hk
    have hcounts := counts_statement n hs hrun
    rw [items_eq, hrun] at hk ⊢
    rw [keyStarts_eq, hrun]
    obtain ⟨s₁, hstart, hne, hkey, hrest⟩ := ih (hcounts.not_mem hs) hk
    refine ⟨s₁, hstart, hne, hkey, hcounts.trans ?_⟩
    -- the first item adds the line feeds of its value to those of the items behind it
    dsimp only
    rw [List.take_succ_cons, List.flatMap_cons, List.count_append,
      Nat.add_comm (first.quotedText.count '\n'), ← Nat.add_assoc]
    exact hrest.add_right (first.quotedText.count '\n')

/-! ## Line numbers of a document -/

/-- **Only line feeds within quoted values are not counted.** Read a document without carriage returns,
and take any of its items. It begins in the document with its key. The line feeds before that are one
less than the number given to the line of the item, but for those within the quoted values of the items
before it, which the number leaves out. -/
theorem line_add_quoted {t : Text} (ht : '\r' ∉ t) {k : Nat} {item : Item}
    (hk : (read (⟨t⟩ : Passage)).items[k]? = some item) :
    ∃ b, (keyStarts 1 (Buffered.start (⟨t⟩ : Passage)))[k]? = some b ∧
      b.stream = t.drop b.offset ∧ item.key ≠ [] ∧ item.key <+: b.stream ∧
      item.line + (((read (⟨t⟩ : Passage)).items.take k).flatMap Item.quotedText).count '\n' =
        1 + (t.take b.offset).count '\n' := by
  have hwithin : (Buffered.start (⟨t⟩ : Passage)).Within 8192 := ⟨rfl, Nat.zero_le _⟩
  have hfits := fits_items 1 (by decide) hwithin
  rw [(read_passage t).1] at hk ⊢
  obtain ⟨s₁, hs₁, hne, hkey, v, hv, hcount⟩ := counts_keyStarts ht hk
  -- on the passage the keys begin where they begin on the stack
  have hrel : (evaluating (Buffered.start ⟨t⟩)).rel [] (Buffered.start (⟨t⟩ : Passage)) ⟨t⟩ :=
    ⟨rfl, .refl _⟩
  have hstarts := forall₂_keyStarts 1 hrel fun _ _ he => hfits.not_isOverfull he
  obtain ⟨b, hb, w, hstream, htakes⟩ : ∃ b, (keyStarts 1 (Buffered.start (⟨t⟩ : Passage)))[k]? =
      some b ∧ ∃ w, (evaluating (Buffered.start ⟨t⟩)).rel w b s₁ := by
    obtain ⟨hlength, hget⟩ := List.forall₂_iff_get.1 hstarts
    obtain ⟨hk₁, rfl⟩ := List.getElem?_eq_some_iff.1 hs₁
    exact ⟨_, List.getElem?_eq_getElem (hlength ▸ hk₁), hget k _ hk₁⟩
  have hw : t = w ++ b.stream := htakes.stream
  have hoffset : b.offset = w.length := htakes.offset.trans (Nat.zero_add _)
  obtain rfl : v = w := List.append_cancel_right (hv.symm.trans (by rw [hstream, ← hw]))
  have hdrop : t.drop b.offset = b.stream := by rw [hw, hoffset, List.drop_left]
  have htake : t.take b.offset = v := by rw [hw, hoffset, List.take_left]
  rw [hstream] at hkey hcount
  refine ⟨b, hb, hdrop.symm, hne, hkey, ?_⟩
  rw [htake, hcount]
  intro hnil
  rw [hnil, List.prefix_nil] at hkey
  exact hne hkey

/-- A key behind a value that ends on the line below: the key is on the fourth line. -/
theorem line_add_quoted_two_lines :
    let t : Text :=
      ['\n', 'a', ' ', '=', ' ', '\'', '\n', '\'', '\n', 'b', ' ', '=', ' ', '1']
    let r := read (⟨t⟩ : Passage)
    '\r' ∉ t ∧ r.items[1]? = some (.setting 3 ['b'] (.integer 1) none) ∧
      ∃ b, (keyStarts 1 (Buffered.start (⟨t⟩ : Passage)))[1]? = some b ∧ b.stream = t.drop b.offset ∧
        ['b'] <+: b.stream ∧ 3 + 1 = 1 + (t.take b.offset).count '\n' := by
  intro t r
  have ht : '\r' ∉ t := by simp [t]
  have hk : r.items[1]? = some (.setting 3 ['b'] (.integer 1) none) := by decide +kernel
  obtain ⟨b, hb, hstream, -, hkey, hcount⟩ := line_add_quoted ht hk
  have hquoted : ((r.items.take 1).flatMap Item.quotedText).count '\n' = 1 := by decide +kernel
  refine ⟨ht, hk, b, hb, hstream, hkey, ?_⟩
  rw [← hcount, hquoted]
  rfl

/-- A document that is read without a fault. Before its second key there are two line feeds, so the key
is on the third line, but the number given is that of the second. -/
theorem line_behind_quoted_lineFeed :
    let t : Text :=
      ['a', ' ', '=', ' ', '"', 'x', '\n', 'y', '"', '\n', 'b', ' ', '=', ' ', '1', '\n']
    '\r' ∉ t ∧
      (read (⟨t⟩ : Passage)).returned = .ok
        [{ line := 1, key := ['a'], value := .quoted ['x', '\n', 'y'] },
          { line := 2, key := ['b'], value := .integer 1 }] ∧
      (keyStarts 1 (Buffered.start (⟨t⟩ : Passage))).map Buffered.offset = [0, 10] ∧
      ['b'] <+: t.drop 10 ∧ 1 + (t.take 10).count '\n' = 3 := by
  refine ⟨by simp, ?_, ?_, by decide, by decide⟩
  · decide +kernel
  · decide +kernel

end Settings

end Rescan
