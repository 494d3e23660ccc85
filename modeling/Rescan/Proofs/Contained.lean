import Mathlib.Data.List.Basic
import Rescan.Proofs.Plain

/-!
# Texts that nothing behind them affects

A recognizer looks ahead, so what it does with a text may depend on what follows the text. If the
text ends with the end of a line it does not: none of the tokens goes on behind the end of a line,
but for a delimited literal, and one that is complete has its closing delimiter before it. So the
recognizer ends within the text, and does the same when another text follows.

## Main definitions

* `Text.Terminated`: texts that end with the end of a line.
* `Scan.Contained`: actions that are not affected by what follows a text.

## Main statements

* `Scan.Contained.span`, `exactly`, `boolean`, `signed`, `delimited`, `line`: one statement for each
  recognizer.
-/

namespace Rescan

open CharStream

variable {σ α β : Type}

/-! ## Terminated texts -/

theorem endsLine_iff {c : Char} : endsLine c = true ↔ c = '\n' ∨ c = '\r' := by
  simp [endsLine]

/-- In a text without line ends there is nothing to be counted. -/
theorem count_lineFeed {t : Text} (ht : ∀ c ∈ t, endsLine c = false) : t.count '\n' = 0 := by
  apply List.count_eq_zero.2
  intro hc
  exact absurd (ht _ hc) (by decide)

/-- A text whose last character ends a line. -/
def Text.Terminated (t : Text) : Prop :=
  ∃ c, t.getLast? = some c ∧ endsLine c = true

namespace Text.Terminated

variable {t u : Text} {c : Char}

theorem ne_nil (h : Terminated t) : t ≠ [] := by
  rcases h with ⟨c, hc, -⟩
  intro ht
  rw [ht] at hc
  cases hc

/-- What follows a part of it is terminated too, if there is anything. -/
theorem right (h : Terminated (t ++ u)) (hu : u ≠ []) : Terminated u := by
  rcases h with ⟨c, hc, he⟩
  refine ⟨c, ?_, he⟩
  rwa [List.getLast?_append_of_ne_nil _ hu] at hc

theorem append (h : Terminated u) (t : Text) : Terminated (t ++ u) := by
  have hu := h.ne_nil
  rcases h with ⟨c, hc, he⟩
  exact ⟨c, by rwa [List.getLast?_append_of_ne_nil _ hu], he⟩

/-- Behind characters that end no line there is something. -/
theorem of_append (h : Terminated (t ++ u)) (ht : ∀ c ∈ t, endsLine c = false) : Terminated u := by
  apply h.right
  intro hu
  rcases h with ⟨c, hc, he⟩
  rw [hu, List.append_nil] at hc
  exact Bool.false_ne_true ((ht c (List.mem_of_getLast? hc)).symm.trans he)

theorem of_singleton (h : Terminated [c]) : endsLine c = true := by
  rcases h with ⟨c, hc, he⟩
  cases hc
  exact he

theorem head?_append (h : Terminated t) (u : Text) : (t ++ u).head? = t.head? :=
  List.head?_append_of_ne_nil _ h.ne_nil

end Text.Terminated

open Text (Terminated)

/-! ## Contained actions -/

/-- From a text that satisfies `P`, the action is not affected by what follows the text. The rest
that it leaves of the text satisfies `Q`. -/
def Scan.Contained (P : Text → Prop) (x : Scan Stack α) (Q : α → Text → Prop) : Prop :=
  ∀ ⦃t a rest⦄, P t → x.run ⟨t⟩ = .ok a rest →
    Q a rest.chars ∧ ∀ u, x.run ⟨t ++ u⟩ = .ok a ⟨rest.chars ++ u⟩

namespace Scan.Contained

variable {P : Text → Prop} {Q : α → Text → Prop} {R : β → Text → Prop} {c : Char}

theorem pure {a : α} (h : ∀ t, P t → Q a t) : Contained P (Pure.pure a) Q := by
  intro t a' rest ht hx
  cases hx
  exact ⟨h t ht, fun _ => rfl⟩

theorem bind {x : Scan Stack α} {f : α → Scan Stack β} (hx : Contained P x Q)
    (hf : ∀ a, Contained (Q a) (f a) R) : Contained P (x >>= f) R := by
  intro t b rest ht hxf
  obtain ⟨a, s, h₁, h₂⟩ := Scan.run_bind_eq_ok_iff.1 hxf
  obtain ⟨hq, h₁'⟩ := hx ht h₁
  obtain ⟨hr, h₂'⟩ := hf a hq h₂
  refine ⟨hr, fun u => ?_⟩
  rw [Scan.run_bind, h₁', Outcome.bind_ok]
  exact h₂' u

theorem mono {P' : Text → Prop} {x : Scan Stack α} (hx : Contained P x Q) (h : ∀ t, P' t → P t) :
    Contained P' x Q :=
  fun _ _ _ ht => hx (h _ ht)

/-! ### Reading and looking ahead -/

theorem next (hc : endsLine c = false) :
    Contained (fun t => t.head? = some c ∧ Terminated t) (Source.next : Scan Stack (Option Char))
      (fun d t => d = some c ∧ Terminated t) := by
  intro t a rest ht hx
  obtain ⟨hhead, hterm⟩ := ht
  obtain ⟨x, rfl⟩ := List.head?_eq_some_iff.1 hhead
  rw [Stack.next_run_cons] at hx
  cases hx
  have hx : Terminated x := by
    apply Terminated.of_append (t := [c]) hterm
    simpa using hc
  exact ⟨⟨rfl, hx⟩, fun u => rfl⟩

theorem handBack (c : Option Char) :
    Contained Terminated (CharStream.handBack c : Scan Stack Unit) (fun _ => Terminated) := by
  intro t a rest ht hx
  rw [Stack.handBack_run] at hx
  cases hx
  refine ⟨ht.append _, fun u => ?_⟩
  rw [Stack.handBack_run, List.append_assoc]

theorem peek :
    Contained Terminated (CharStream.peek : Scan Stack (Option Char))
      (fun c t => t.head? = c ∧ Terminated t) := by
  intro t a rest ht hx
  rw [Stack.peek_run] at hx
  cases hx
  refine ⟨⟨rfl, ht⟩, fun u => ?_⟩
  rw [Stack.peek_run, ht.head?_append]

/-! ### Recognizers -/

/-- A span without line ends stops before the last character. -/
theorem span {p : Char → Bool} (hp : ∀ c, endsLine c = true → p c = false) :
    Contained Terminated (span p : Scan Stack Text) (fun _ => Terminated) := by
  intro t a rest ht hx
  obtain ⟨v, x, rfl, hv, hx'⟩ := exists_span p t
  -- the span ends before the last character of the text
  have hterm : Terminated x := by
    apply ht.of_append
    intro c hc
    cases hce : endsLine c with
    | false => rfl
    | true => exact absurd ((hv c hc).symm.trans (hp c hce)) (by decide)
  rw [Stack.span_run hv hx'] at hx
  cases hx
  refine ⟨hterm, fun u => ?_⟩
  rw [List.append_assoc]
  exact Stack.span_run hv (by rwa [hterm.head?_append])

theorem nonemptySpan {p : Char → Bool} (hp : ∀ c, endsLine c = true → p c = false) :
    Contained Terminated (nonemptySpan p : Scan Stack (Option Text)) (fun _ => Terminated) :=
  (span hp).bind fun _ => pure fun _ h => h

/-- A text without line ends that does not come next does not come next in a longer text either. -/
theorem exactly {v : Text} (hv : ∀ c ∈ v, endsLine c = false) :
    Contained Terminated (exactly v : Scan Stack Bool) (fun _ => Terminated) := by
  intro t a rest ht hx
  by_cases hpre : v <+: t
  · obtain ⟨x, rfl⟩ := hpre
    rw [Stack.exactly_run] at hx
    cases hx
    refine ⟨ht.of_append hv, fun u => ?_⟩
    rw [List.append_assoc, Stack.exactly_run]
  · -- more text does not complete it
    have hnot (u : Text) : ¬ v <+: t ++ u := by
      intro h
      rcases List.prefix_or_prefix_of_prefix h (List.prefix_append t u) with h | h
      · exact hpre h
      · -- then the last character of `t` would be one of `v`
        rcases ht with ⟨c, hc, he⟩
        exact Bool.false_ne_true ((hv c (h.subset (List.mem_of_getLast? hc))).symm.trans he)
    rw [Stack.exactly_absent hpre] at hx
    cases hx
    exact ⟨ht, fun u => Stack.exactly_absent (hnot u)⟩

theorem boolean :
    Contained Terminated (boolean : Scan Stack (Option Bool)) (fun _ => Terminated) := by
  have htruth (b : Bool) :
      Contained Terminated (truth b : Scan Stack (Option Bool)) (fun _ => Terminated) := by
    refine (exactly ?_).bind fun _ => pure fun _ h => h
    cases b <;> simp [truthName, endsLine]
  refine peek.bind fun c => ?_
  split
  · exact (htruth true).mono fun _ h => h.2
  · exact (htruth false).mono fun _ h => h.2
  · exact pure fun _ h => h.2

theorem signed :
    Contained Terminated (signed : Scan Stack (Option Int)) (fun _ => Terminated) := by
  have hdigits :
      Contained Terminated (digits : Scan Stack (Option Text)) (fun _ => Terminated) := by
    apply nonemptySpan
    intro c hc
    rcases endsLine_iff.1 hc with rfl | rfl <;> decide
  have hrange (negative : Bool) (ds : Text) :
      Contained Terminated (do return some (← inRange negative ds) : Scan Stack (Option Int))
        (fun _ => Terminated) := by
    unfold inRange
    split
    · exact pure fun _ h => h
    · intro t a rest ht hx
      cases hx
  refine peek.bind fun c => ?_
  cases c with
  | none => exact pure fun _ h => h.2
  | some c =>
    dsimp only
    split
    · next hs =>
      -- a sign ends no line, so there is something behind it
      have hc : endsLine c = false := by rcases hs with rfl | rfl <;> decide
      refine (next hc).bind fun sign => ?_
      refine (hdigits.mono fun _ h => h.2).bind fun ds => ?_
      cases ds with
      | none => exact (handBack sign).bind fun _ => pure fun _ h => h
      | some ds => exact hrange _ ds
    split
    · refine (hdigits.mono fun _ h => h.2).bind fun ds => ?_
      cases ds with
      | none => exact pure fun _ h => h
      | some ds => exact hrange _ ds
    · exact pure fun _ h => h.2

/-- A literal that is closed is closed before the last character; the induction is on the text. -/
theorem contentFrom {d : Delimiters} (hd : endsLine d.closing = false) (before : Option Char) :
    Contained Terminated (⟨contentFrom d before⟩ : Scan Stack Text) (fun _ => Terminated) := by
  intro t a rest ht hx
  change Rescan.contentFrom d before (⟨t⟩ : Stack) = _ at hx
  change _ ∧ ∀ u, Rescan.contentFrom d before (⟨t ++ u⟩ : Stack) = _
  induction t generalizing before a with
  | nil => exact absurd rfl ht.ne_nil
  | cons c x ih =>
    rw [Stack.contentFrom_cons] at hx
    by_cases hnil : x = []
    · -- the last character closes nothing, and behind it the literal does not end
      subst hnil
      have hc : c ≠ d.closing := by
        intro h
        rw [h] at ht
        exact Bool.false_ne_true (hd.symm.trans ht.of_singleton)
      simp [Delimiters.closesAt, hc, Stack.contentFrom_nil] at hx
    · have hterm : Terminated x := Terminated.right (t := [c]) ht hnil
      have hcons (u : Text) : Rescan.contentFrom d before (⟨c :: x ++ u⟩ : Stack) = _ :=
        Stack.contentFrom_cons d before c (x ++ u)
      simp only [hcons, hterm.head?_append]
      by_cases hclose : d.closesAt before c x.head? = true
      · rw [if_pos hclose] at hx
        cases hx
        exact ⟨hterm, fun u => if_pos hclose⟩
      · rw [if_neg hclose] at hx
        obtain ⟨v, hv, rfl⟩ := Outcome.map_eq_ok_iff.1 hx
        obtain ⟨hr, hu⟩ := ih (some c) hterm hv
        refine ⟨hr, fun u => ?_⟩
        rw [if_neg hclose, hu u]
        rfl

theorem delimited {d : Delimiters} (ho : endsLine d.opening = false)
    (hd : endsLine d.closing = false) :
    Contained (fun t => t.head? = some d.opening ∧ Terminated t)
      (delimited d : Scan Stack (Option Text)) (fun _ => Terminated) := by
  refine (next ho).bind fun c => ?_
  by_cases hc : c = some d.opening
  · rw [if_pos hc]
    exact ((contentFrom hd none).mono fun _ h => h.2).bind fun _ => pure fun _ h => h
  · -- this is not the character that was looked at
    rw [if_neg hc]
    intro t a rest ht
    exact absurd ht.1 hc

/-- A line is read through the character that ends it, which may be the last one. -/
theorem line :
    Contained Terminated (line : Scan Stack (Option Text)) (fun _ t => t ≠ [] → Terminated t) := by
  intro t a rest ht hx
  obtain ⟨l, x, rfl, hl, hx'⟩ := exists_line t
  have hterm := ht.of_append hl
  cases x with
  | nil => exact absurd rfl hterm.ne_nil
  | cons e x =>
    have he : endsLine e = true := hx' e rfl
    -- what is left may be nothing, if the text is one line
    rw [Stack.line_run hl he] at hx
    cases hx
    refine ⟨Terminated.right (t := [e]) hterm, fun u => ?_⟩
    rw [List.append_assoc]
    exact Stack.line_run hl he

end Scan.Contained

end Rescan
