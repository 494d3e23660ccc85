import Rescan.Settings.Item
import Rescan.Stream.Buffered
import Rescan.Token.Delimited
import Rescan.Token.Exact
import Rescan.Token.Line
import Rescan.Token.Numeral

/-!
# Reading settings

A statement is a key, an equals sign and a value on one line. A key is a word. The first character
after the equals sign tells what kind of value to try; what turns out not to be one is a bare text
up to the end of the line. Statements are read until there is no word left.

Lines are counted from one. A line feed among blanks counts, and so does the end of every comment
and of every statement, but not a line end within a quoted value.

Blanks are passed over without reading ahead: every character is looked at, and read only if it is a
blank. So each of them is read, handed back and read again.

## Main definitions

* `passOver`: leaves out the characters at the front that have a property, looking before each read.
* `statement`: the next item of a document; `items`: all of them.
-/

namespace Rescan.Settings

open CharStream

variable {σ : Type} [CharStream σ]

/-! ## Passing over characters -/

/-- Passes over the characters for which `p` holds, from a given state. Each of them is looked at
before it is read, and so is the first one that is left. The answer is what was read. -/
def passOverFrom (p : Char → Bool) (s : σ) : Outcome σ Text :=
  match _h₁ : peek.run s with
  | .error e s₁ => .error e s₁
  | .ok none s₁ => .ok [] s₁
  | .ok (some c) s₁ =>
    if p c then
      match _h₂ : Source.next.run s₁ with
      | .error e s₂ => .error e s₂
      | .ok d s₂ => (passOverFrom p s₂).map (d.toList ++ ·)
    else .ok [] s₁
termination_by Source.left s
decreasing_by exact left_next_peek _h₁ _h₂

/-- One turn of passing over characters. -/
theorem passOverFrom_eq (p : Char → Bool) (s : σ) :
    passOverFrom p s = (peek.run s).bind fun c s₁ =>
      match c with
      | none => .ok [] s₁
      | some c =>
        if p c then
          (Source.next.run s₁).bind fun d s₂ => (passOverFrom p s₂).map (d.toList ++ ·)
        else .ok [] s₁ := by
  rw [passOverFrom]
  cases peek.run s with
  | error e s₁ => rfl
  | ok c s₁ =>
    cases c with
    | none => rfl
    | some c =>
      simp only [Outcome.bind_ok]
      split
      · cases Source.next.run s₁ <;> rfl
      · rfl

/-- Passes over the characters for which `p` holds. -/
def passOver (p : Char → Bool) : Scan σ Text :=
  ⟨passOverFrom p⟩

theorem steady_passOver (p : Char → Bool) : Scan.Steady (passOver p : Scan σ Text) := by
  intro s s' t h
  change passOverFrom p s = _ at h
  fun_induction passOverFrom p s generalizing t with
  | case1 => cases h
  | case2 s s₁ h₁ =>
    cases h
    exact steady_peek h₁
  | case3 => cases h
  | case4 s c s₁ h₁ hp d s₂ h₂ ih =>
    obtain ⟨u, hu, -⟩ := Outcome.map_eq_ok_iff.1 h
    exact Nat.le_trans (ih hu) (Nat.le_of_lt (left_next_peek h₁ h₂))
  | case5 s c s₁ h₁ hp =>
    cases h
    exact steady_peek h₁

/-! ## Blanks and comments -/

/-- A comment that was seen behind blanks lowers what is to be read. -/
theorem left_comment {s s₁ s₂ s₃ : σ} {blanks : Text} {c : Char} {l : Option Text}
    (hblanks : (passOver isBlank).run s = .ok blanks s₁) (hpeek : peek.run s₁ = .ok (some c) s₂)
    (hline : line.run s₂ = .ok l s₃) : Source.left s₃ < Source.left s :=
  Nat.lt_of_lt_of_le (left_line_peek hpeek hline) (steady_passOver _ hblanks)

/-- Leaves out blanks and comments from a given state. The answer is the number of the line
reached. -/
def dropCommentsFrom (n : Nat) (s : σ) : Outcome σ Nat :=
  match _h₁ : (passOver isBlank).run s with
  | .error e s₁ => .error e s₁
  | .ok blanks s₁ =>
    match _h₂ : peek.run s₁ with
    | .error e s₂ => .error e s₂
    | .ok c s₂ =>
      if _hc : c = some '#' then
        match _h₃ : line.run s₂ with
        | .error e s₃ => .error e s₃
        | .ok _ s₃ => dropCommentsFrom (n + blanks.count '\n' + 1) s₃
      else .ok (n + blanks.count '\n') s₂
termination_by Source.left s
decreasing_by
  subst _hc
  exact left_comment _h₁ _h₂ _h₃

/-- Leaves out blanks and comments. -/
def dropComments (n : Nat) : Scan σ Nat :=
  ⟨dropCommentsFrom n⟩

/-! ## Statements -/

/-- Whether a character is a blank within a line. -/
def isInline (c : Char) : Bool :=
  c == ' ' || c == '\t'

/-- A value that is not a bare text. -/
def scalar : Scan σ (Option Scalar) := do
  match ← peek with
  | none => return none
  | some c =>
    if c = '"' then return (← delimited (.quoted '"')).map .quoted
    else if c = '\'' then return (← delimited (.doubling '\'')).map .quoted
    else if c = 't' ∨ c = 'f' then return (← boolean).map .truth
    else if c.isDigit ∨ c = '+' ∨ c = '-' then return (← signed).map .integer
    else return none

/-- The rest of a statement on line `n` after its key. -/
def assignment (n : Nat) (key : Text) : Scan σ Item := do
  let _ ← passOver isInline
  if ← exactly ['='] then
    let _ ← passOver isInline
    let value ← scalar
    let rest := (← line).getD []
    match value with
    | some value => return .setting n key value (if rest.isBlank then none else some rest)
    | none => return .setting n key (.bare rest.trimEnd) none
  else
    return .stray n key ((← line).getD [])

/-- The next statement, if there is one, and the number of the line reached. -/
def statement (n : Nat) : Scan σ (Nat × Option Item) := do
  let n ← dropComments n
  match ← word with
  | none => return (n, none)
  | some key => return (n + 1, some (← assignment n key))

/-! ## Progress -/

theorem steady_dropComments (n : Nat) : Scan.Steady (dropComments n : Scan σ Nat) := by
  intro s s' m h
  change dropCommentsFrom n s = _ at h
  fun_induction dropCommentsFrom n s with
  | case1 => cases h
  | case2 => cases h
  | case3 => cases h
  | case4 n s blanks s₁ h₁ s₂ l s₃ h₃ h₂ ih =>
    -- a comment, and whatever follows it
    exact Nat.le_trans (ih h) (Nat.le_of_lt (left_comment h₁ h₂ h₃))
  | case5 n s blanks s₁ h₁ c s₂ h₂ hc =>
    cases h
    exact Nat.le_trans (steady_peek h₂) (steady_passOver _ h₁)

theorem steady_scalar : Scan.Steady (scalar : Scan σ (Option Scalar)) := by
  refine .bind steady_peek fun c => ?_
  cases c with
  | none => exact .pure _
  | some c =>
    simp only
    split
    · exact .bind (steady_delimited _) fun _ => .pure _
    split
    · exact .bind (steady_delimited _) fun _ => .pure _
    split
    · exact .bind steady_boolean fun _ => .pure _
    split
    · exact .bind steady_signed fun _ => .pure _
    · exact .pure _

theorem steady_assignment (n : Nat) (key : Text) :
    Scan.Steady (assignment n key : Scan σ Item) := by
  refine .bind (steady_passOver _) fun _ => .bind (steady_exactly _) fun present => ?_
  split
  · refine .bind (steady_passOver _) fun _ => .bind steady_scalar fun value => ?_
    refine .bind steady_line fun rest => ?_
    cases value <;> exact .pure _
  · exact .bind steady_line fun _ => .pure _

/-- A statement lowers what is to be read. -/
theorem left_statement {n m : Nat} {item : Item} {s s' : σ}
    (h : (statement n).run s = .ok (m, some item) s') : Source.left s' < Source.left s := by
  obtain ⟨k, s₁, h₁, h⟩ := Scan.run_bind_eq_ok_iff.1 h
  obtain ⟨key, s₂, h₂, h⟩ := Scan.run_bind_eq_ok_iff.1 h
  cases key with
  | none => cases h
  | some key =>
    obtain ⟨i, s₃, h₃, h⟩ := Scan.run_bind_eq_ok_iff.1 h
    cases h
    -- only the key is sure to be there
    have := steady_dropComments _ h₁
    have := left_nonemptySpan h₂
    have := steady_assignment _ _ h₃
    omega

/-! ## Documents -/

/-- What was found in a document, and how reading it ended: at its end, with the number of the line
reached, or at a fault. -/
structure Reading (σ : Type) where
  items : List Item
  ending : Outcome σ Nat

/-- All items from a given line and state on. -/
def items (n : Nat) (s : σ) : Reading σ :=
  match _h : (statement n).run s with
  | .ok (m, some item) s' =>
    let rest := items m s'
    { rest with items := item :: rest.items }
  | .ok (m, none) s' => { items := [], ending := .ok m s' }
  | .error e s' => { items := [], ending := .error e s' }
termination_by Source.left s
decreasing_by exact left_statement _h

/-- Reads a document from its source. -/
def read {σ : Type} [Source σ] (source : σ) : Reading (Buffered σ) :=
  items 1 (Buffered.start source)

namespace Reading

variable {σ : Type}

/-- The settings found, in order. -/
def settings (r : Reading σ) : List Setting :=
  r.items.filterMap Item.setting?

/-- The warnings caused, in order. -/
def warnings (r : Reading σ) : List Warning :=
  r.items.filterMap Item.warning?

end Reading

end Rescan.Settings
