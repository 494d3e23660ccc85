import Rescan.Proofs.Contained
import Rescan.Proofs.Integer

/-!
# Texts that differ behind a line

A recognizer that looks ahead sees the character that ends a line, but it makes no difference to it
which character that is, what follows, or whether the text ends there instead. So on two texts that
agree up to the end of a line it ends alike. Only a delimited literal may go on behind the line.

## Main definitions

* `Text.PlainLine`: what stands on a line without quotes.
* `Text.EndsLine`: what may stand behind it.
* `Scan.Alike`: actions that end alike on related stacks.

## Main statements

* `Scan.Alike.span`, `exactly`, `boolean`, `signed`, `line`: one statement for each recognizer.
-/

namespace Rescan

open CharStream

variable {α β : Type}

/-! ## Lines and what follows them -/

namespace Text

/-- A text within a line, in which there are no quotes. -/
def PlainLine (l : Text) : Prop :=
  ∀ c ∈ l, endsLine c = false ∧ c ≠ '"' ∧ c ≠ '\''

theorem PlainLine.right {u v : Text} (h : PlainLine (u ++ v)) : PlainLine v :=
  fun c hc => h c (List.mem_append_right u hc)

theorem PlainLine.within {l : Text} (h : PlainLine l) : ∀ c ∈ l, endsLine c = false :=
  fun c hc => (h c hc).1

/-- Nothing, or a text that begins with the end of a line. -/
def EndsLine (x : Text) : Prop :=
  ∀ c ∈ x.head?, endsLine c = true

namespace EndsLine

variable {l x : Text} (hx : EndsLine x)

include hx

theorem head?_append {p : Char → Bool} (hp : ∀ c, endsLine c = true → p c = false)
    (hl : ∀ c ∈ l.head?, p c = false) : ∀ c ∈ (l ++ x).head?, p c = false := by
  cases l with
  | nil => exact fun c hc => hp c (hx c hc)
  | cons d l => exact hl

/-- A text without line ends comes next within the line, or not at all. -/
theorem prefix_of_append {t : Text} (ht : ∀ c ∈ t, endsLine c = false) (h : t <+: l ++ x) :
    t <+: l := by
  rcases List.prefix_or_prefix_of_prefix h (List.prefix_append l x) with hp | ⟨w, rfl⟩
  · exact hp
  · -- what there is behind the line would begin with a line end
    rw [List.prefix_append_right_inj] at h
    cases w with
    | nil => simp
    | cons c w =>
      obtain ⟨y, rfl⟩ := h
      have hc : endsLine c = false := ht c (by simp)
      exact absurd (hc.symm.trans (hx c rfl)) Bool.false_ne_true

theorem sign_append : sign (l ++ x) = sign l := by
  cases l with
  | cons c l => rfl
  | nil =>
    refine sign_eq_none_iff.2 fun c hc => ?_
    rcases endsLine_iff.1 (hx c hc) with rfl | rfl <;> decide

theorem digitsBehindSign_append : digitsBehindSign (l ++ x) = digitsBehindSign l := by
  have hle : l.sign.toList.length ≤ l.length := by
    have hlength := length_number l
    omega
  have hstop : x.takeWhile Char.isDigit = [] := by
    cases x with
    | nil => rfl
    | cons c x =>
      have hc : c.isDigit = false := by rcases endsLine_iff.1 (hx c rfl) with rfl | rfl <;> decide
      exact List.takeWhile_cons_of_neg (by simp [hc])
  rw [digitsBehindSign, digitsBehindSign, hx.sign_append, List.drop_append_of_le_length hle,
    List.takeWhile_append, hstop]
  split
  · next hall => rw [List.append_nil, (List.takeWhile_prefix _).eq_of_length hall]
  · rfl

end EndsLine

end Text

open Text (PlainLine EndsLine)

/-- A line is read through the character that ends it, if there is one. -/
theorem Stack.line_run_tail {l x : Text} (hl : ∀ c ∈ l, endsLine c = false) (hx : EndsLine x) :
    ∃ r, line.run (⟨l ++ x⟩ : Stack) = .ok r ⟨x.tail⟩ ∧ r.getD [] = l := by
  cases x with
  | nil =>
    rw [List.append_nil]
    exact Stack.line_run_last hl
  | cons e x => exact ⟨some l, Stack.line_run hl (hx e rfl), rfl⟩

/-! ## Two stacks that differ behind a line -/

/-- The stacks are the same up to the end of a line, where `x` and `x'` begin. -/
def Stack.OnLine (x x' : Text) (s s' : Stack) : Prop :=
  ∃ l, PlainLine l ∧ s.chars = l ++ x ∧ s'.chars = l ++ x'

/-- The line has been read with the character that ends it. -/
def Stack.BehindLine (x x' : Text) (s s' : Stack) : Prop :=
  s.chars = x.tail ∧ s'.chars = x'.tail

/-- From stacks related by `P` the action ends alike, and if that is not in a fault the stacks are
related by `Q`. -/
def Scan.Alike (P : Stack → Stack → Prop) (x : Scan Stack α) (Q : α → Stack → Stack → Prop) : Prop :=
  ∀ ⦃s s'⦄, P s s' → Outcome.Agree (fun _ => False) (fun _ _ => True) Q (x.run s) (x.run s')

namespace Scan.Alike

variable {P : Stack → Stack → Prop} {Q : α → Stack → Stack → Prop} {R : β → Stack → Stack → Prop}

theorem pure {a : α} (h : ∀ s s', P s s' → Q a s s') : Alike P (Pure.pure a) Q :=
  fun s s' hs => .ok (h s s' hs)

theorem bind {x : Scan Stack α} {f : α → Scan Stack β} (hx : Alike P x Q)
    (hf : ∀ a, Alike (Q a) (f a) R) : Alike P (x >>= f) R := by
  intro s s' hs
  rw [Scan.run_bind, Scan.run_bind]
  exact (hx hs).bind fun a _ _ _ hq => hf a hq

section OnLine

variable {x x' : Text} (hx : EndsLine x) (hx' : EndsLine x')

include hx hx'

/-- What is done at the end of a line has to be what is done at the end of the text. -/
theorem peek {f : Option Char → Scan Stack β}
    (hf : ∀ c, c ≠ some '"' → c ≠ some '\'' → Alike (Stack.OnLine x x') (f c) R)
    (hend : ∀ c, endsLine c = true → f (some c) = f none) :
    Alike (Stack.OnLine x x') (CharStream.peek >>= f) R := by
  rintro ⟨_⟩ ⟨_⟩ ⟨l, hl, rfl, rfl⟩
  rw [Scan.run_bind, Scan.run_bind, Stack.peek_run, Stack.peek_run, Outcome.bind_ok,
    Outcome.bind_ok]
  cases l with
  | nil =>
    have hnone {y : Text} (hy : EndsLine y) : f y.head? = f none := by
      cases y with
      | nil => rfl
      | cons c y => exact hend c (hy c rfl)
    rw [List.nil_append, List.nil_append, hnone hx, hnone hx']
    exact hf none (by simp) (by simp) ⟨[], hl, rfl, rfl⟩
  | cons c l =>
    have hc := hl c List.mem_cons_self
    exact hf (some c) (by simp [hc.2.1]) (by simp [hc.2.2]) ⟨c :: l, hl, rfl, rfl⟩

theorem span {p : Char → Bool} (hp : ∀ c, endsLine c = true → p c = false) :
    Alike (Stack.OnLine x x') (span p) (fun _ => Stack.OnLine x x') := by
  rintro ⟨_⟩ ⟨_⟩ ⟨l, hl, rfl, rfl⟩
  obtain ⟨t, y, rfl, ht, hy⟩ := exists_span p l
  rw [List.append_assoc, List.append_assoc, Stack.span_run ht (hx.head?_append hp hy),
    Stack.span_run ht (hx'.head?_append hp hy)]
  exact .ok ⟨y, hl.right, rfl, rfl⟩

theorem exactly {t : Text} (ht : ∀ c ∈ t, endsLine c = false) :
    Alike (Stack.OnLine x x') (exactly t) (fun _ => Stack.OnLine x x') := by
  rintro ⟨_⟩ ⟨_⟩ ⟨l, hl, rfl, rfl⟩
  by_cases hpre : t <+: l
  · obtain ⟨y, rfl⟩ := hpre
    rw [List.append_assoc, List.append_assoc, Stack.exactly_run, Stack.exactly_run]
    exact .ok ⟨y, hl.right, rfl, rfl⟩
  · rw [Stack.exactly_absent fun h => hpre (hx.prefix_of_append ht h),
      Stack.exactly_absent fun h => hpre (hx'.prefix_of_append ht h)]
    exact .ok ⟨l, hl, rfl, rfl⟩

theorem boolean : Alike (Stack.OnLine x x') boolean (fun _ => Stack.OnLine x x') := by
  have htruth (b : Bool) : Alike (Stack.OnLine x x') (truth b) (fun _ => Stack.OnLine x x') := by
    refine (exactly hx hx' ?_).bind fun _ => pure fun _ _ h => h
    cases b <;> simp [truthName, endsLine]
  refine peek hx hx' (fun c _ _ => ?_) fun c hc => ?_
  · split
    · exact htruth true
    · exact htruth false
    · exact pure fun _ _ h => h
  · rcases endsLine_iff.1 hc with rfl | rfl <;> rfl

theorem signed : Alike (Stack.OnLine x x') signed (fun _ => Stack.OnLine x x') := by
  rintro ⟨_⟩ ⟨_⟩ ⟨l, hl, rfl, rfl⟩
  have hle : l.sign.toList.length + l.digitsBehindSign.length ≤ l.length := by
    have hlength := Text.length_number l
    omega
  rw [Stack.signed_run, Stack.signed_run, hx.sign_append, hx'.sign_append,
    hx.digitsBehindSign_append, hx'.digitsBehindSign_append, List.drop_append_of_le_length hle,
    List.drop_append_of_le_length hle]
  split
  · exact .ok ⟨l, hl, rfl, rfl⟩
  · rw [inRange_eq]
    split
    · refine .ok ⟨_, ?_, rfl, rfl⟩
      exact fun c hc => hl c (List.mem_of_mem_drop hc)
    · exact .error trivial

/-- The rest of the line is read. Whether there was any has to make no difference. -/
theorem line {f : Option Text → Scan Stack β} (g : Text → β)
    (hf : ∀ r, f r = Pure.pure (g (r.getD []))) :
    Alike (Stack.OnLine x x') (Rescan.line >>= f) (fun _ => Stack.BehindLine x x') := by
  rintro ⟨_⟩ ⟨_⟩ ⟨l, hl, rfl, rfl⟩
  obtain ⟨r, hrun, hr⟩ := Stack.line_run_tail hl.within hx
  obtain ⟨r', hrun', hr'⟩ := Stack.line_run_tail hl.within hx'
  rw [Scan.run_bind, Scan.run_bind, hrun, hrun', Outcome.bind_ok, Outcome.bind_ok, hf, hf, hr, hr']
  exact .ok ⟨rfl, rfl⟩

end OnLine

end Scan.Alike

end Rescan
