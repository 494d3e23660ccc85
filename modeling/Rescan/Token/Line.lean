import Rescan.Stream.Basic

/-!
# Lines

A line ends at a line feed, at a carriage return or at an end of input. The character that ends it
is consumed and is not part of it. So a carriage return before a line feed ends a line, and the line
feed ends an empty one.

## Main definitions

* `line`: the next line; absent only at an end of input.
* `dropBlankLines`: leaves out the blank lines at the front.
-/

namespace Rescan

open CharStream

variable {σ : Type} [CharStream σ]

/-- Whether a character ends a line. -/
def endsLine (c : Char) : Bool :=
  c == '\n' || c == '\r'

/-- Reads to the end of the line from a given state; nothing is left if it ends at once. -/
def lineFrom (s : σ) : Outcome σ Text :=
  match _h : Source.next.run s with
  | .ok (some c) s' => if endsLine c then .ok [] s' else (lineFrom s').map (c :: ·)
  | .ok none s' => .ok [] s'
  | .error e s' => .error e s'
termination_by Source.left s
decreasing_by exact Source.left_some _h

/-- One turn of reading to the end of the line. -/
theorem lineFrom_eq (s : σ) :
    lineFrom s = (Source.next.run s).bind fun c s' =>
      match c with
      | none => .ok [] s'
      | some c => if endsLine c then .ok [] s' else (lineFrom s').map (c :: ·) := by
  rw [lineFrom]
  cases Source.next.run s with
  | ok c s' => cases c <;> rfl
  | error e s' => rfl

/-- The next line, which is absent at an end of input. -/
def line : Scan σ (Option Text) := do
  match ← Source.next with
  | none => return none
  | some c =>
    if endsLine c then return some []
    else return some (c :: (← ⟨lineFrom⟩))

/-! ## Progress -/

theorem left_lineFrom {s s' : σ} {t : Text} (h : lineFrom s = .ok t s') :
    Source.left s' ≤ Source.left s := by
  fun_induction lineFrom s generalizing t with
  | case1 s c s₁ h₁ hc =>
    cases h
    exact Nat.le_of_lt (Source.left_some h₁)
  | case2 s c s₁ h₁ hc ih =>
    obtain ⟨u, hu, _⟩ := Outcome.map_eq_ok_iff.1 h
    exact Nat.le_trans (ih hu) (Nat.le_of_lt (Source.left_some h₁))
  | case3 s s₁ h₁ =>
    cases h
    exact Source.left_none h₁
  | case4 => cases h

/-- A line that is present lowers what is to be read. -/
theorem left_line {s s' : σ} {t : Text} (h : line.run s = .ok (some t) s') :
    Source.left s' < Source.left s := by
  obtain ⟨c, s₁, h₁, h⟩ := Scan.run_bind_eq_ok_iff.1 h
  cases c with
  | none => cases h
  | some c =>
    have hlt := Source.left_some h₁
    by_cases hc : endsLine c
    · -- an empty line
      simp only [hc, if_true] at h
      cases h
      exact hlt
    · simp only [hc] at h
      obtain ⟨u, s₂, h₂, h⟩ := Scan.run_bind_eq_ok_iff.1 h
      cases h
      exact Nat.lt_of_le_of_lt (left_lineFrom h₂) hlt

theorem steady_line : Scan.Steady (line : Scan σ (Option Text)) := by
  intro s s' t h
  cases t with
  | some t => exact Nat.le_of_lt (left_line h)
  | none =>
    obtain ⟨c, s₁, h₁, h⟩ := Scan.run_bind_eq_ok_iff.1 h
    cases c with
    | none =>
      cases h
      exact Source.left_none h₁
    | some c =>
      by_cases hc : endsLine c
      · simp only [hc, if_true] at h
        cases h
      · simp only [hc] at h
        obtain ⟨u, s₂, h₂, h⟩ := Scan.run_bind_eq_ok_iff.1 h
        cases h

/-- Where a character was seen there is a line. -/
theorem exists_line_peek {s s₁ s₂ : σ} {c : Char} {l : Option Text}
    (hpeek : peek.run s = .ok (some c) s₁) (hline : line.run s₁ = .ok l s₂) : ∃ t, l = some t := by
  obtain ⟨s', hnext⟩ := next_peek hpeek
  rw [line, Scan.run_bind, hnext, Outcome.bind_ok] at hline
  dsimp only at hline
  split at hline
  · cases hline
    exact ⟨_, rfl⟩
  · obtain ⟨t, -, rfl⟩ := Scan.run_bind_pure_eq_ok_iff.1 hline
    exact ⟨_, rfl⟩

/-- A line of which a character was seen lowers what is to be read. -/
theorem left_line_peek {s s₁ s₂ : σ} {c : Char} {l : Option Text}
    (hpeek : peek.run s = .ok (some c) s₁) (hline : line.run s₁ = .ok l s₂) :
    Source.left s₂ < Source.left s := by
  obtain ⟨t, rfl⟩ := exists_line_peek hpeek hline
  exact Nat.lt_of_lt_of_le (left_line hline) (steady_peek hpeek)

/-! ## Blank lines -/

/-- Leaves out blank lines from a given state. -/
def dropBlankLinesFrom (s : σ) : Outcome σ Unit :=
  match _h : line.run s with
  | .ok (some t) s' =>
    if t.isBlank then dropBlankLinesFrom s' else (putBack (t ++ ['\n'])).run s'
  | .ok none s' => .ok () s'
  | .error e s' => .error e s'
termination_by Source.left s
decreasing_by exact left_line _h

/-- One turn of leaving out blank lines. -/
theorem dropBlankLinesFrom_eq (s : σ) :
    dropBlankLinesFrom s = (line.run s).bind fun t s' =>
      match t with
      | none => .ok () s'
      | some t => if t.isBlank then dropBlankLinesFrom s' else (putBack (t ++ ['\n'])).run s' := by
  rw [dropBlankLinesFrom]
  cases line.run s with
  | ok t s' => cases t <;> rfl
  | error e s' => rfl

/-- Leaves out the blank lines at the front. The first line that is not blank is handed back with a
line feed, however it ended. -/
def dropBlankLines : Scan σ Unit :=
  ⟨dropBlankLinesFrom⟩

end Rescan
