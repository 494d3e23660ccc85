import Rescan.Stream.Basic

/-!
# Delimited literals

A delimited literal stands between an opening and a closing delimiter. A closing delimiter can stand
inside it in one of two ways, by how the escape character relates to the delimiter.

* *Doubling*: the escape character is the closing delimiter. A delimiter next to another one is
  part of the content, and only one that stands alone ends the literal.
* *Escaping*: the escape character is another one. A delimiter right after it is part of the content.

The content is the text as it stands, with doubled delimiters and escape characters kept.

## Main definitions

* `Delimiters`: how a literal is delimited, and what to do when it is not there.
* `delimited`: the content of the literal that comes next.
-/

namespace Rescan

open CharStream

/-- How a literal is delimited. -/
structure Delimiters where
  /-- The opening delimiter. -/
  opening : Char
  /-- The closing delimiter. -/
  closing : Char
  /-- The character that makes a closing delimiter part of the content. -/
  escape : Option Char
  /-- Whether a character that is not the opening delimiter is handed back. -/
  restore : Bool := false
deriving DecidableEq, Repr

namespace Delimiters

/-- The same delimiter on both sides, doubled within the content. -/
def doubling (delimiter : Char) : Delimiters where
  opening := delimiter
  closing := delimiter
  escape := some delimiter

/-- Two delimiters. If they are the same character it is doubled within the content; if they differ
there is no escape. -/
def between (opening closing : Char) : Delimiters where
  opening := opening
  closing := closing
  escape := if opening = closing then some opening else none

/-- Quotes in which a backslash escapes. -/
def quoted (quote : Char) : Delimiters :=
  { doubling quote with escape := some '\\' }

/-- Whether the closing delimiter escapes itself. -/
def isDoubling (d : Delimiters) : Bool :=
  d.escape == some d.closing

/-- Whether the character before, if there is one in the content, escapes the next. -/
def escapedBy (d : Delimiters) : Option Char → Bool
  | none => false
  | some c => d.escape == some c

/-- Delimiters that are the same character are doubled. -/
theorem between_self (delimiter : Char) : between delimiter delimiter = doubling delimiter := by
  simp [between, doubling]

end Delimiters

variable {σ : Type} [CharStream σ]

/-- The content from a given state within the literal through its closing delimiter; `before` is the
last character of the content so far. -/
def contentFrom (d : Delimiters) (before : Option Char) (s : σ) : Outcome σ Text :=
  match _h : Source.next.run s with
  | .ok none s' => .error (.unclosed d.closing) s'
  | .error e s' => .error e s'
  | .ok (some c) s' =>
    if c = d.closing ∧ ¬ d.escapedBy before then
      if d.isDoubling then
        -- a delimiter that is followed by another one does not end the literal
        match _h' : peek.run s' with
        | .ok ahead s'' =>
          if ahead = some c then (contentFrom d (some c) s'').map (c :: ·) else .ok [] s''
        | .error e s'' => .error e s''
      else .ok [] s'
    else (contentFrom d (some c) s').map (c :: ·)
termination_by Source.left s
decreasing_by
  · exact Nat.lt_of_le_of_lt (steady_peek _h') (Source.left_some _h)
  · exact Source.left_some _h

/-- One turn of reading the content. -/
theorem contentFrom_eq (d : Delimiters) (before : Option Char) (s : σ) :
    contentFrom d before s = (Source.next.run s).bind fun c s' =>
      match c with
      | none => .error (.unclosed d.closing) s'
      | some c =>
        if c = d.closing ∧ ¬ d.escapedBy before then
          if d.isDoubling then
            (peek.run s').bind fun ahead s'' =>
              if ahead = some c then (contentFrom d (some c) s'').map (c :: ·) else .ok [] s''
          else .ok [] s'
        else (contentFrom d (some c) s').map (c :: ·) := by
  rw [contentFrom]
  cases Source.next.run s with
  | error e s' => rfl
  | ok c s' =>
    cases c with
    | none => rfl
    | some c =>
      simp only [Outcome.bind_ok]
      cases peek.run s' <;> rfl

/-- The content of the literal that comes next. If another character comes next the literal is
absent, and that character is consumed unless it is to be restored. -/
def delimited (d : Delimiters) : Scan σ (Option Text) := do
  let opening ← Source.next
  if opening = some d.opening then
    return some (← ⟨contentFrom d none⟩)
  else
    if d.restore then handBack opening
    return none

/-- A literal that is there is its opening delimiter and the content behind it. -/
theorem delimited_eq_some {d : Delimiters} {s s' : σ} {t : Text}
    (h : (delimited d).run s = .ok (some t) s') :
    ∃ s₁, Source.next.run s = .ok (some d.opening) s₁ ∧ contentFrom d none s₁ = .ok t s' := by
  obtain ⟨opening, s₁, h₁, h⟩ := Scan.run_bind_eq_ok_iff.1 h
  by_cases ho : opening = some d.opening
  · subst ho
    simp only [if_true] at h
    obtain ⟨u, s₂, h₂, h⟩ := Scan.run_bind_eq_ok_iff.1 h
    cases h
    exact ⟨s₁, h₁, h₂⟩
  · -- with another character in its place the literal is absent
    simp only [ho, if_false] at h
    split at h
    · obtain ⟨_, s₂, h₂, h⟩ := Scan.run_bind_eq_ok_iff.1 h
      cases h
    · cases h

/-! ## Progress -/

theorem left_contentFrom {d : Delimiters} {before : Option Char} {s s' : σ} {t : Text}
    (h : contentFrom d before s = .ok t s') : Source.left s' < Source.left s := by
  fun_induction contentFrom d before s generalizing t with
  | case1 => cases h
  | case2 => cases h
  | case3 before s c s₁ h₁ hr hd s₂ h₂ ih =>
    -- a doubled delimiter: the second one is still to be read
    obtain ⟨u, hu, _⟩ := Outcome.map_eq_ok_iff.1 h
    have := ih hu
    have := steady_peek h₂
    have := Source.left_some h₁
    omega
  | case4 before s c s₁ h₁ hr hd ahead s₂ h₂ ha =>
    -- a delimiter that stands alone
    cases h
    exact Nat.lt_of_le_of_lt (steady_peek h₂) (Source.left_some h₁)
  | case5 => cases h
  | case6 before s c s₁ h₁ hr hd =>
    -- a delimiter that is not escaped
    cases h
    exact Source.left_some h₁
  | case7 before s c s₁ h₁ hr ih =>
    -- any other character of the content
    obtain ⟨u, hu, _⟩ := Outcome.map_eq_ok_iff.1 h
    exact Nat.lt_trans (ih hu) (Source.left_some h₁)

theorem steady_delimited (d : Delimiters) : Scan.Steady (delimited d : Scan σ (Option Text)) := by
  intro s s' t h
  obtain ⟨opening, s₁, h₁, h⟩ := Scan.run_bind_eq_ok_iff.1 h
  have hle := Scan.Steady.next h₁
  by_cases ho : opening = some d.opening
  · simp only [ho, if_true] at h
    obtain ⟨u, s₂, h₂, h⟩ := Scan.run_bind_eq_ok_iff.1 h
    cases h
    have := left_contentFrom h₂
    omega
  · simp only [ho, if_false] at h
    cases hr : d.restore with
    | false =>
      simp only [hr] at h
      cases h
      exact hle
    | true =>
      simp only [hr, if_true] at h
      obtain ⟨_, s₂, h₂, h⟩ := Scan.run_bind_eq_ok_iff.1 h
      cases h
      exact left_handBack_le h₁ (Nat.le_refl _) h₂

end Rescan
