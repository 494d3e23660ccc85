import Rescan.Proofs.Settings.Composition

/-!
# Documents that are written and read back

A document is written line by line, and every line in its parts: how far it is indented, the key,
the blanks around the equals sign, how the value is spelled, and the blanks behind it. Reading what
was written finds every setting again, with its value and the number of its line, and nothing else.
For this the value has to be spelled such that its first character, and what follows, do not make
another kind of value of it.

## Main definitions

* `Literal`, `Line`: values and lines as they are written; `Literal.text`, `Line.text`, `render`.
* `Literal.Proper`, `Line.Proper`: those that mean what they are written for.
* `Literal.value`, `Line.setting?`: what they mean.

## Main statements

* `scalar_literal`, `scalar_bare`: reading a value.
* `run_statement_setting`, `run_statement_other`: reading a line.
* `items_render`: the items of a document that was written.
* `read_render`: reading a document that was written.
-/

namespace Rescan.Settings

open CharStream

/-! ## Values as they are written -/

/-- How a value is written. -/
inductive Literal where
  /-- A content between double quotes, with a backslash before every double quote. -/
  | escaped (content : Text)
  /-- A content between single quotes, with every single quote doubled. -/
  | doubled (content : Text)
  /-- Digits, with an optional sign. -/
  | integer (sign : Option Char) (digits : Text)
  | truth (b : Bool)
  /-- Without quotes. -/
  | bare (text : Text)
deriving DecidableEq, Repr

namespace Literal

def text : Literal → Text
  | escaped content => '"' :: content ++ ['"']
  | doubled content => '\'' :: content ++ ['\'']
  | integer sign ds => sign.toList ++ ds
  | truth b => truthName b
  | bare text => text

/-- What the value is. A content is kept as it is written. -/
def value : Literal → Scalar
  | escaped content => .quoted content
  | doubled content => .quoted content
  | integer sign ds => .integer (signedDecimal (sign == some '-') ds)
  | truth b => .truth b
  | bare text => .bare text

/-- The ways of writing that can be read back. -/
inductive Proper : Literal → Prop where
  /-- Every double quote directly follows a backslash, and no backslash is the last character. -/
  | escaped {b : Text} (hquote : ∀ u v, b = u ++ '"' :: v → u.getLast? = some '\\')
      (hlast : b.getLast? ≠ some '\\') : (Literal.escaped b).Proper
  /-- Every maximal run of single quotes has at least two of them, and none is the last character.
  So no quote stands alone. -/
  | doubled {b : Text}
      (hrun : ∀ u n v, b = u ++ List.replicate n '\'' ++ v → 0 < n → u.getLast? ≠ some '\'' →
        v.head? ≠ some '\'' → 2 ≤ n)
      (hlast : b.getLast? ≠ some '\'') : (Literal.doubled b).Proper
  /-- A number of 64 bits; zeros may lead it. -/
  | integer {sign : Option Char} {ds : Text} (hsign : ∀ s ∈ sign, s = '+' ∨ s = '-') (hne : ds ≠ [])
      (hds : ∀ c ∈ ds, c.isDigit = true)
      (hrange : isSigned64 (signedDecimal (sign == some '-') ds) = true) :
      (Literal.integer sign ds).Proper
  | truth (b : Bool) : (Literal.truth b).Proper
  /-- A text, which may be empty, that does not begin like another value or with a blank of the
  line, and does not end with a blank. -/
  | bare {w : Text} (hinline : ∀ c ∈ w.head?, isInline c = false)
      (hquote : ∀ c ∈ w.head?, c ≠ '"' ∧ c ≠ '\'') (hdigit : ∀ c ∈ w.head?, c.isDigit = false)
      (hsign : ∀ s c v, w = s :: c :: v → s = '+' ∨ s = '-' → c.isDigit = false)
      (htruth : ∀ b, ¬ truthName b <+: w) (hlast : ∀ c ∈ w.getLast?, isBlank c = false) :
      (Literal.bare w).Proper

end Literal

/-! ## Lines as they are written -/

/-- A line of a document, in its parts. -/
inductive Line where
  | blank (blanks : Text)
  /-- A comment, and the blanks before it. -/
  | comment (indent text : Text)
  /-- A key and a value, and the blanks before, between and behind them. -/
  | setting (indent key gap pad : Text) (literal : Literal) (trail : Text)
deriving DecidableEq, Repr

namespace Line

/-- The line as it is written, without the character that ends it. -/
def text : Line → Text
  | blank blanks => blanks
  | comment indent text => indent ++ '#' :: text
  | setting indent key gap pad literal trail =>
    indent ++ key ++ gap ++ '=' :: (pad ++ literal.text ++ trail)

/-- What the line says, if it is line `n` of a document. -/
def setting? (n : Nat) : Line → Option Setting
  | setting _ key _ _ literal _ => some { line := n, key, value := literal.value }
  | _ => none

/-- The lines that can be read back. -/
inductive Proper : Line → Prop where
  | blank {blanks : Text} (hblanks : ∀ c ∈ blanks, isBlank c = true) : (Line.blank blanks).Proper
  | comment {indent text : Text} (hindent : ∀ c ∈ indent, isBlank c = true) :
      (Line.comment indent text).Proper
  /-- The key is a word and does not begin a comment. Only blanks within a line stand between it and
  the value, and at least one of them before the equals sign. -/
  | setting {indent key gap pad trail : Text} {literal : Literal}
      (hindent : ∀ c ∈ indent, isBlank c = true) (hne : key ≠ [])
      (hkey : ∀ c ∈ key, isBlank c = false) (hcomment : key.head? ≠ some '#') (hapart : gap ≠ [])
      (hgap : ∀ c ∈ gap, isInline c = true) (hpad : ∀ c ∈ pad, isInline c = true)
      (hliteral : literal.Proper) (htrail : ∀ c ∈ trail, isBlank c = true) :
      (Line.setting indent key gap pad literal trail).Proper

end Line

/-- A document: its lines, each with a line feed behind it. -/
def render (doc : List Line) : Text :=
  doc.flatMap fun l => l.text ++ ['\n']

/-! ## Blank characters -/

theorem isBlank_of_isInline {c : Char} (h : isInline c = true) : isBlank c = true := by
  simp only [isInline, Bool.or_eq_true, beq_iff_eq] at h
  rcases h with rfl | rfl <;> decide

/-- Digits are not blank: their code points lie between two ranges of the table. -/
theorem isDigit_of_isBlank {c : Char} (h : isBlank c = true) : c.isDigit = false := by
  cases hd : c.isDigit with
  | false => rfl
  | true =>
    have hc : c.val.toNat = c.toNat := rfl
    simp [Char.isDigit, UInt32.le_iff_toNat_le] at hd
    simp [isBlank, inRanges, blankRanges] at h
    omega

/-! ## Reading a value -/

section Scalar

variable {y : Text} (hy : ∀ c ∈ y.head?, isBlank c = true)

/-- A double quote within the content follows a backslash, and the one behind it does not. -/
theorem scalar_escaped {b : Text} (hb : (Literal.escaped b).Proper) :
    scalar.run (⟨(Literal.escaped b).text ++ y⟩ : Stack) = .ok (some (.quoted b)) ⟨y⟩ := by
  rcases hb with ⟨hquote, hlast⟩
  have hrun : (delimited (.quoted '"')).run (⟨'"' :: (b ++ '"' :: y)⟩ : Stack) =
      .ok (some b) ⟨y⟩ := by
    apply Stack.delimited_run
    · intro u c v hb
      by_cases hc : c = '"'
      · subst hc
        rw [hquote u v hb]
        rfl
      · simp [Delimiters.closesAt, Delimiters.quoted, Delimiters.doubling, hc]
    · -- the quote behind the content is not escaped
      cases hbl : b.getLast? with
      | none => rfl
      | some c =>
        have hc : c ≠ '\\' := fun h => hlast (h ▸ hbl)
        simp [Delimiters.closesAt, Delimiters.quoted, Delimiters.doubling, Delimiters.escapedBy,
          Delimiters.isDoubling, Ne.symm hc]
  simp [scalar, Literal.text, hrun]

include hy

/-- A single quote within the content stands next to another one, and the one behind it does not. -/
theorem scalar_doubled {b : Text} (hb : (Literal.doubled b).Proper) :
    scalar.run (⟨(Literal.doubled b).text ++ y⟩ : Stack) = .ok (some (.quoted b)) ⟨y⟩ := by
  rcases hb with - | ⟨hrun, hlast⟩
  have hrun : (delimited (.doubling '\'')).run (⟨'\'' :: (b ++ '\'' :: y)⟩ : Stack) =
      .ok (some b) ⟨y⟩ := by
    apply Stack.delimited_run
    · intro u c v hb
      rw [← Bool.not_eq_true, Delimiters.closesAt_doubling]
      intro h
      obtain ⟨rfl, hbefore, hafter⟩ := h
      -- otherwise there would be a run of one
      have hv : v.head? ≠ some '\'' := by
        intro hv
        rw [List.head?_append, hv] at hafter
        exact hafter rfl
      have := hrun u 1 v (by simpa using hb) (by decide) hbefore hv
      omega
    · -- the quote behind it stands alone, since a blank follows
      rw [Delimiters.closesAt_doubling]
      refine ⟨rfl, hlast, fun h => ?_⟩
      exact absurd (hy _ h) (by decide)
  simp [scalar, Literal.text, hrun]

/-- Digits end where a blank follows. -/
theorem scalar_integer {sign : Option Char} {ds : Text} (hl : (Literal.integer sign ds).Proper) :
    scalar.run (⟨(Literal.integer sign ds).text ++ y⟩ : Stack) =
      .ok (some (Literal.integer sign ds).value) ⟨y⟩ := by
  rcases hl with - | - | ⟨hsign, hne, hds, hrange⟩
  have hdigit : ∀ c ∈ y.head?, c.isDigit = false := fun c hc => isDigit_of_isBlank (hy c hc)
  have hrun : signed.run (⟨sign.toList ++ ds ++ y⟩ : Stack) =
      .ok (some (signedDecimal (sign == some '-') ds)) ⟨y⟩ := by
    have hok {negative : Bool} (h : isSigned64 (signedDecimal negative ds) = true) :
        ((inRange negative ds).run (⟨y⟩ : Stack)).map some =
          .ok (some (signedDecimal negative ds)) ⟨y⟩ := by
      rw [inRange_eq, if_pos h, Scan.run_pure, Outcome.map_ok]
    cases sign with
    | none =>
      exact (Stack.signed_run_digits hds hne hdigit).trans (hok hrange)
    | some s =>
      have hneg : (some s == some '-') = decide (s = '-') := Bool.eq_iff_iff.2 (by simp)
      rw [hneg] at hrange ⊢
      exact (Stack.signed_run_sign hds hne hdigit (hsign s rfl)).trans (hok hrange)
  -- the first character, which is a sign or a digit, tells that a number is to be tried
  obtain ⟨c, x, hx, hc⟩ : ∃ c x, sign.toList ++ ds ++ y = c :: x ∧
      (c.isDigit = true ∨ c = '+' ∨ c = '-') := by
    cases sign with
    | some s => exact ⟨s, ds ++ y, rfl, .inr (hsign s rfl)⟩
    | none =>
      cases ds with
      | nil => exact absurd rfl hne
      | cons d ds => exact ⟨d, ds ++ y, rfl, .inl (hds d List.mem_cons_self)⟩
  have hother : c ≠ '"' ∧ c ≠ '\'' ∧ c ≠ 't' ∧ c ≠ 'f' := by
    refine ⟨?_, ?_, ?_, ?_⟩ <;> intro h <;> subst h <;> exact absurd hc (by decide)
  rw [hx] at hrun
  rw [Literal.text, hx]
  simp [scalar, hother, hc, hrun, Literal.value]

omit hy in
theorem scalar_truth (b : Bool) :
    scalar.run (⟨truthName b ++ y⟩ : Stack) = .ok (some (.truth b)) ⟨y⟩ := by
  have hrun := Stack.boolean_run b y
  cases b <;> simp [scalar, truthName] at hrun ⊢ <;> simp [hrun]

/-- Behind a text that begins with no name of a truth value a blank does not complete one. -/
theorem not_truthName_append {w : Text} {b : Bool} (h : ¬ truthName b <+: w) :
    ¬ truthName b <+: w ++ y := by
  intro hpre
  rcases List.prefix_or_prefix_of_prefix hpre (List.prefix_append w y) with hname | hw
  · exact h hname
  · obtain ⟨v, hv⟩ := hw
    rw [← hv, List.prefix_append_right_inj] at hpre
    cases v with
    | nil =>
      rw [List.append_nil] at hv
      exact h (hv ▸ List.prefix_refl w)
    | cons c v =>
      -- the name would go on with the blank, but there is none in a name
      obtain ⟨z, rfl⟩ := hpre
      have hmem : c ∈ truthName b := hv ▸ List.mem_append_right w List.mem_cons_self
      have hname : ∀ c ∈ truthName b, isBlank c = false := by
        cases b <;> simp [truthName, isBlank, inRanges, blankRanges]
      exact Bool.false_ne_true ((hname c hmem).symm.trans (hy c rfl))

/-- Behind a text that does not begin with a sign and a digit a blank does not make it so. -/
theorem not_signed_append {w : Text}
    (h : ∀ s c v, w = s :: c :: v → s = '+' ∨ s = '-' → c.isDigit = false) :
    ∀ s x, w ++ y = s :: x → s = '+' ∨ s = '-' → ∀ c ∈ x.head?, c.isDigit = false := by
  intro s x hx hs c hc
  cases w with
  | nil =>
    -- the sign itself would be the blank
    rw [List.nil_append] at hx
    have hblank : isBlank s = true := hy s (by rw [hx]; rfl)
    rcases hs with rfl | rfl <;> exact absurd hblank (by decide)
  | cons d w =>
    cases hx
    cases w with
    | nil => exact isDigit_of_isBlank (hy c hc)
    | cons e w =>
      cases hc
      exact h _ _ w rfl hs

/-- A bare value is none of the others and is left where it is. -/
theorem scalar_bare {w : Text} (hw : (Literal.bare w).Proper) :
    scalar.run (⟨w ++ y⟩ : Stack) = .ok none ⟨w ++ y⟩ := by
  rcases hw with - | - | - | - | ⟨-, hquote, hdigit, hsign, htruth, -⟩
  -- the first character is one of the value, or a blank
  have hhead : ∀ c ∈ (w ++ y).head?, c ≠ '"' ∧ c ≠ '\'' ∧ c.isDigit = false := by
    intro c hc
    cases w with
    | cons d w => exact ⟨(hquote c hc).1, (hquote c hc).2, hdigit c hc⟩
    | nil =>
      have hblank := hy c hc
      refine ⟨?_, ?_, isDigit_of_isBlank hblank⟩ <;> intro h <;> subst h <;>
        exact absurd hblank (by decide)
  have hboolean := Stack.boolean_absent fun b => not_truthName_append hy (htruth b)
  have hsigned := Stack.signed_absent (fun c hc => (hhead c hc).2.2) (not_signed_append hy hsign)
  cases hx : w ++ y with
  | nil => rfl
  | cons c x =>
    rw [hx] at hboolean hsigned hhead
    have hc := hhead c rfl
    rw [scalar, Scan.run_bind, Stack.peek_run, Outcome.bind_ok, List.head?_cons]
    dsimp only
    rw [if_neg hc.1, if_neg hc.2.1]
    -- a truth value or a number is tried, but it is absent
    split
    · rw [Scan.run_bind, hboolean]
      rfl
    split
    · rw [Scan.run_bind, hsigned]
      rfl
    · rfl

end Scalar

/-- A value that is not bare begins with a character that is no blank, and is read as a whole. -/
theorem scalar_literal {l : Literal} (hl : l.Proper) (hbare : ∀ w, l ≠ .bare w) {y : Text}
    (hy : ∀ c ∈ y.head?, isBlank c = true) :
    (∀ c ∈ (l.text ++ y).head?, isInline c = false) ∧
      scalar.run (⟨l.text ++ y⟩ : Stack) = .ok (some l.value) ⟨y⟩ := by
  have hl' := hl
  cases hl with
  | escaped => exact ⟨by rintro c ⟨⟩; decide, scalar_escaped hl'⟩
  | doubled => exact ⟨by rintro c ⟨⟩; decide, scalar_doubled hy hl'⟩
  | truth b =>
    refine ⟨fun c hc => ?_, scalar_truth b⟩
    cases b <;> cases hc <;> decide
  | bare => exact absurd rfl (hbare _)
  | @integer sign ds hsign hne hds _ =>
    refine ⟨fun c hc => ?_, scalar_integer hy hl'⟩
    cases sign with
    | some s =>
      cases hc
      rcases hsign _ rfl with rfl | rfl <;> decide
    | none =>
      cases ds with
      | nil => exact absurd rfl hne
      | cons d ds =>
        cases hc
        have hd := hds c List.mem_cons_self
        cases hi : isInline c with
        | false => rfl
        | true =>
          rw [isDigit_of_isBlank (isBlank_of_isInline hi)] at hd
          cases hd

/-! ## Reading a line -/

/-- The blanks at the end of a text are all that is left out of it. -/
theorem trimEnd_append {w t : Text} (ht : ∀ c ∈ t, isBlank c = true)
    (hw : ∀ c ∈ w.getLast?, isBlank c = false) : Text.trimEnd (w ++ t) = w := by
  have hreverse : ∀ c ∈ t.reverse, isBlank c = true := fun c hc => ht c (List.mem_reverse.1 hc)
  rw [Text.trimEnd, List.reverse_append, List.dropWhile_append_of_pos hreverse]
  cases hr : w.reverse with
  | nil => simpa using hr.symm
  | cons c r =>
    have hc : isBlank c = false := hw c (by rw [← List.head?_reverse, hr]; rfl)
    rw [List.dropWhile_cons_of_neg (by simp [hc]), ← hr, List.reverse_reverse]

section Assignment

variable {n : Nat} {key gap pad rest : Text} (hgap : ∀ c ∈ gap, isInline c = true)
  (hpad : ∀ c ∈ pad, isInline c = true)

include hpad

/-- Before a bare value, blanks within the line are left out. If the value is empty, they include
some of the blanks behind it, and a part `t` of these is left. -/
theorem exists_pad (rest trail : Text) {w : Text} (hw : ∀ c ∈ w.head?, isInline c = false) :
    ∃ pad' t, pad ++ (w ++ (trail ++ '\n' :: rest)) = pad' ++ (w ++ t ++ '\n' :: rest) ∧
      (∀ c ∈ pad', isInline c = true) ∧ (∀ c ∈ t, c ∈ trail) ∧
      ∀ c ∈ (w ++ t ++ '\n' :: rest).head?, isInline c = false := by
  cases w with
  | cons d w => exact ⟨pad, trail, by simp, hpad, fun _ h => h, hw⟩
  | nil =>
    obtain ⟨t₁, t₂, rfl, ht₁, ht₂⟩ := exists_span isInline trail
    refine ⟨pad ++ t₁, t₂, by simp, List.forall_mem_append.2 ⟨hpad, ht₁⟩,
      fun c hc => List.mem_append_right t₁ hc, ?_⟩
    cases t₂ with
    | cons d t₂ => exact ht₂
    | nil => simp; decide

include hgap

/-- An assignment by what is read of its value, and the rest of its line. -/
theorem run_assignment {x l : Text} {v : Option Scalar} (hx : ∀ c ∈ x.head?, isInline c = false)
    (hscalar : scalar.run (⟨x⟩ : Stack) = .ok v ⟨l ++ '\n' :: rest⟩)
    (hl : ∀ c ∈ l, endsLine c = false) :
    (assignment n key).run (⟨gap ++ '=' :: (pad ++ x)⟩ : Stack) =
      .ok (match v with
        | some value => .setting n key value (if l.isBlank then none else some l)
        | none => .setting n key (.bare l.trimEnd) none) ⟨rest⟩ := by
  have hgap : (span isInline).run (⟨gap ++ '=' :: (pad ++ x)⟩ : Stack) = _ :=
    Stack.span_run hgap (by simp; decide)
  have hequals : (exactly ['=']).run (⟨'=' :: (pad ++ x)⟩ : Stack) = .ok true ⟨pad ++ x⟩ :=
    Stack.exactly_run ['='] (pad ++ x)
  have hpad : (span isInline).run (⟨pad ++ x⟩ : Stack) = _ := Stack.span_run hpad hx
  have hline : line.run (⟨l ++ '\n' :: rest⟩ : Stack) = .ok (some l) ⟨rest⟩ :=
    Stack.line_run hl (by decide)
  cases v <;> simp [assignment, Stack.passOver_eq_span, hgap, hequals, hpad, hscalar, hline]

/-- A value that is written properly is read back, and nothing of its line is ignored. -/
theorem run_assignment_literal {l : Literal} {trail : Text} (hl : l.Proper)
    (htrail : ∀ c ∈ trail, isBlank c = true) (hline : ∀ c ∈ l.text ++ trail, endsLine c = false) :
    (assignment n key).run (⟨gap ++ '=' :: (pad ++ (l.text ++ (trail ++ '\n' :: rest)))⟩ : Stack) =
      .ok (.setting n key l.value none) ⟨rest⟩ := by
  -- what follows a value begins with a blank
  have hblank {t : Text} (ht : ∀ c ∈ t, isBlank c = true) :
      ∀ c ∈ (t ++ '\n' :: rest).head?, isBlank c = true := by
    intro c hc
    cases t with
    | nil =>
      cases hc
      decide
    | cons d t =>
      cases hc
      exact ht _ List.mem_cons_self
  obtain ⟨htext, htrail'⟩ := List.forall_mem_append.1 hline
  by_cases hbare : ∃ w, l = .bare w
  · -- the value is the rest of the line, less the blanks at its end
    obtain ⟨w, rfl⟩ := hbare
    have hproper := hl
    rcases hl with - | - | - | - | ⟨hinline, -, -, -, -, hlast⟩
    obtain ⟨pad', t, heq, hpad', ht, hhead⟩ := exists_pad hpad rest trail hinline
    have htblank : ∀ c ∈ t, isBlank c = true := fun c hc => htrail c (ht c hc)
    have hscalar := scalar_bare (hblank htblank) hproper
    rw [← List.append_assoc] at hscalar
    have hwt : ∀ c ∈ w ++ t, endsLine c = false :=
      List.forall_mem_append.2 ⟨htext, fun c hc => htrail' c (ht c hc)⟩
    rw [Literal.text, heq, run_assignment hgap hpad' hhead hscalar hwt]
    simp [Literal.value, trimEnd_append htblank hlast]
  · -- the value ends before the blanks behind it, which are the rest of the line
    have hnot (w : Text) : l ≠ .bare w := fun h => hbare ⟨w, h⟩
    obtain ⟨hhead, hscalar⟩ := scalar_literal hl hnot (hblank htrail)
    have hall : trail.isBlank = true := List.all_eq_true.2 htrail
    rw [run_assignment hgap hpad hhead hscalar htrail']
    simp [hall]

end Assignment

/-- A line with a setting is a statement. -/
theorem run_statement_setting {n : Nat} {indent key gap pad trail rest : Text} {literal : Literal}
    (h : (Line.setting indent key gap pad literal trail).Proper)
    (hline : ∀ c ∈ (Line.setting indent key gap pad literal trail).text, endsLine c = false) :
    (statement n).run
        (⟨(Line.setting indent key gap pad literal trail).text ++ '\n' :: rest⟩ : Stack) =
      .ok (n + 1, some (.setting n key literal.value none)) ⟨rest⟩ := by
  rcases h with - | - | ⟨hindent, hne, hkey, hcomment, hapart, hgap, hpad, hliteral, htrail⟩
  simp only [Line.text, List.append_assoc, List.cons_append] at hline ⊢
  have hcount := count_lineFeed fun c hc => hline c (List.mem_append_left _ hc)
  have hvalue : ∀ c ∈ literal.text ++ trail, endsLine c = false := by
    intro c hc
    apply hline
    simp only [List.mem_append, List.mem_cons] at hc ⊢
    tauto
  have hassignment : (assignment n key).run
      (⟨gap ++ '=' :: (pad ++ (literal.text ++ (trail ++ '\n' :: rest)))⟩ : Stack) = _ :=
    run_assignment_literal hgap hpad hliteral htrail hvalue
  -- the key ends where the blanks before the equals sign begin
  have hword : word.run
      (⟨key ++ (gap ++ '=' :: (pad ++ (literal.text ++ (trail ++ '\n' :: rest))))⟩ : Stack) =
        .ok (some key) ⟨gap ++ '=' :: (pad ++ (literal.text ++ (trail ++ '\n' :: rest)))⟩ := by
    apply Stack.nonemptySpan_run _ _ hne
    · simpa using hkey
    · cases gap with
      | nil => exact absurd rfl hapart
      | cons g gap =>
        intro c hc
        cases hc
        simpa using isBlank_of_isInline (hgap _ List.mem_cons_self)
  cases key with
  | nil => exact absurd rfl hne
  | cons k key =>
    have hk : isBlank k = false := hkey k List.mem_cons_self
    have hk' : k ≠ '#' := fun h => hcomment (by rw [h]; rfl)
    rw [run_statement, dropCommentsFrom_blanks hindent, hcount, List.cons_append,
      dropCommentsFrom_statement hk hk', ← List.cons_append, Outcome.bind_ok, keyed, Scan.run_bind,
      hword, Nat.add_zero]
    simp [hassignment]

/-- A line without a setting is left out, but it is counted. -/
theorem run_statement_other {n : Nat} {l : Line} {rest : Text} (hl : l.Proper)
    (hline : ∀ c ∈ l.text, endsLine c = false) (hnone : l.setting? n = none) :
    (statement n).run (⟨l.text ++ '\n' :: rest⟩ : Stack) = (statement (n + 1)).run ⟨rest⟩ := by
  rw [run_statement, run_statement]
  cases hl with
  | setting => cases hnone
  | @blank blanks hblanks =>
    -- the line feed is one blank more
    have hall : ∀ c ∈ blanks ++ ['\n'], isBlank c = true :=
      List.forall_mem_append.2 ⟨hblanks, by simp; decide⟩
    have hskip := dropCommentsFrom_blanks (n := n) (x := rest) hall
    rw [List.append_assoc, List.count_append, count_lineFeed (t := blanks) hline] at hskip
    exact congrArg (Outcome.bind · _) hskip
  | @comment indent text hindent =>
    have hcomment : ∀ c ∈ '#' :: text, endsLine c = false := fun c hc =>
      hline c (List.mem_append_right _ hc)
    have hindent' : ∀ c ∈ indent, endsLine c = false := fun c hc =>
      hline c (List.mem_append_left _ hc)
    have hrun : line.run (⟨'#' :: (text ++ '\n' :: rest)⟩ : Stack) = _ :=
      Stack.line_run hcomment (by decide)
    rw [Line.text, List.append_assoc, dropCommentsFrom_blanks hindent, count_lineFeed hindent',
      List.cons_append, dropCommentsFrom_comment hrun]

/-! ## Documents -/

/-- The item that a setting is read from. -/
def Setting.item (x : Setting) : Item :=
  .setting x.line x.key x.value none

/-- What the first line adds to the items of the others. -/
theorem items_line {n : Nat} {l : Line} (rest : Text) (hl : l.Proper)
    (hline : ∀ c ∈ l.text, endsLine c = false) :
    items n (⟨l.text ++ '\n' :: rest⟩ : Stack) =
      { items := ((l.setting? n).map Setting.item).toList ++ (items (n + 1) (⟨rest⟩ : Stack)).items
        ending := (items (n + 1) (⟨rest⟩ : Stack)).ending } := by
  cases hs : l.setting? n with
  | none => rw [items_eq, run_statement_other hl hline hs, ← items_eq]; rfl
  | some x =>
    cases l with
    | blank => cases hs
    | comment => cases hs
    | setting indent key gap pad literal trail =>
      cases hs
      rw [items_eq, run_statement_setting hl hline]
      rfl

/-- A document is read line by line; the induction is on the lines. -/
theorem items_render {doc : List Line} (n : Nat)
    (h : ∀ l ∈ doc, l.Proper ∧ ∀ c ∈ l.text, endsLine c = false) :
    items n (⟨render doc⟩ : Stack) =
      { items := ((doc.zipIdx n).filterMap fun p => p.1.setting? p.2).map Setting.item
        ending := .ok (n + doc.length) ⟨[]⟩ } := by
  induction doc generalizing n with
  | nil =>
    have hstatement : (statement n).run (⟨render []⟩ : Stack) = .ok (n, none) ⟨[]⟩ := by
      rw [run_statement, render, List.flatMap_nil, dropCommentsFrom_nil, Outcome.bind_ok, keyed_nil]
    rw [items_eq, hstatement]
    rfl
  | cons l doc ih =>
    rw [List.forall_mem_cons] at h
    obtain ⟨⟨hl, hline⟩, hdoc⟩ := h
    have hrender : render (l :: doc) = l.text ++ '\n' :: render doc := by simp [render]
    have hlen : n + (l :: doc).length = n + 1 + doc.length := by
      rw [List.length_cons]
      omega
    rw [hrender, items_line _ hl hline, ih (n + 1) hdoc, hlen, List.zipIdx_cons]
    cases hs : l.setting? n <;> simp [hs]

/-- **Round trip.** Take a document of lines that are written properly, none of which holds a
character that ends a line. Reading what is written causes no warning and returns one setting for
every line with a key, in order: that key, the value that is written, and the number of the line,
counted from one. -/
theorem read_render {doc : List Line} (h : ∀ l ∈ doc, l.Proper)
    (hline : ∀ l ∈ doc, ∀ c ∈ l.text, endsLine c = false) :
    (read (⟨render doc⟩ : Passage)).warnings = [] ∧
      (read (⟨render doc⟩ : Passage)).returned =
        .ok ((doc.zipIdx 1).filterMap fun p => p.1.setting? p.2) := by
  rw [warnings_passage, returned_passage, items_render 1 fun l hl => ⟨h l hl, hline l hl⟩]
  constructor
  · simp [Reading.warnings, Setting.item, Item.warning?, List.filterMap_map, Function.comp_def]
  · simp [Reading.returned, Reading.settings, Setting.item, Item.setting?, List.filterMap_map,
      Function.comp_def, Outcome.result, Except.map]

/-- A comment, a number with a leading zero, a blank line, and a content that begins with a doubled
quote. -/
theorem read_render_doubled :
    let doc : List Line :=
      [.comment [' '] ['x'], .setting [] ['a'] [' '] [] (.integer (some '-') ['0', '7']) ['\t'],
        .blank [' '], .setting ['\t'] ['k', '='] ['\t'] [' '] (.doubled ['\'', '\'', 'x']) []]
    (read (⟨render doc⟩ : Passage)).warnings = [] ∧
      (read (⟨render doc⟩ : Passage)).returned =
        .ok [{ line := 2, key := ['a'], value := .integer (-7) },
          { line := 4, key := ['k', '='], value := .quoted ['\'', '\'', 'x'] }] := by
  intro doc
  have hinteger : (Literal.integer (some '-') ['0', '7']).Proper :=
    .integer (by simp) (by simp) (by simp) (by decide +kernel)
  have hdoubled : (Literal.doubled ['\'', '\'', 'x']).Proper := by
    refine .doubled (fun u n v hb hn hu hv => ?_) (by simp)
    -- a run of one would have to be one of the two, and stand next to the other
    by_contra hlt
    obtain rfl : n = 1 := by omega
    rw [List.replicate_one, List.append_assoc, List.singleton_append] at hb
    cases u with
    | nil =>
      cases hb
      exact hv rfl
    | cons c u =>
      cases u with
      | nil =>
        cases hb
        exact hu rfl
      | cons d u => simp [List.cons_eq_append_iff] at hb
  have htab : ∀ c ∈ ['\t'], isInline c = true := by simp [isInline]
  have hspace : ∀ c ∈ [' '], isInline c = true := by simp [isInline]
  have h : ∀ l ∈ doc, l.Proper := by
    simp only [doc, List.forall_mem_cons]
    refine ⟨.comment fun c hc => isBlank_of_isInline (hspace c hc), ?_,
      .blank fun c hc => isBlank_of_isInline (hspace c hc), ?_, by simp⟩
    · refine .setting (by simp) (by simp) ?_ (by simp) (by simp) hspace (by simp) hinteger
        fun c hc => isBlank_of_isInline (htab c hc)
      simp [isBlank, inRanges, blankRanges]
    · refine .setting (fun c hc => isBlank_of_isInline (htab c hc)) (by simp) ?_ (by simp) (by simp)
        htab hspace hdoubled (by simp)
      simp [isBlank, inRanges, blankRanges]
  exact read_render h (by simp [doc, Line.text, Literal.text, endsLine])

end Rescan.Settings
