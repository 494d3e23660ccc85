import Rescan.Stream.Basic

/-!
# Spans of characters

The longest span of characters with a property, read from the front of a stream. The character that
ends the span is handed back. Words, digits and blanks are spans; so is everything up to the end.

## Main statements

* `left_span`: a span is taken off what is to be read, so a loop that reads non-empty spans ends.
-/

namespace Rescan

open CharStream

variable {σ : Type} [CharStream σ]

/-- The longest span of characters for which `p` holds, read from a given state. -/
def spanFrom (p : Char → Bool) (s : σ) : Outcome σ Text :=
  match _h : Source.next.run s with
  | .ok (some c) s' =>
    if p c then (spanFrom p s').map (c :: ·)
    else ((putBack [c]).run s').map fun _ => []
  | .ok none s' => .ok [] s'
  | .error e s' => .error e s'
termination_by Source.left s
decreasing_by exact Source.left_some _h

/-- One turn of reading a span. -/
theorem spanFrom_eq (p : Char → Bool) (s : σ) :
    spanFrom p s = (Source.next.run s).bind fun c s' =>
      match c with
      | none => .ok [] s'
      | some c =>
        if p c then (spanFrom p s').map (c :: ·)
        else ((putBack [c]).run s').map fun _ => [] := by
  rw [spanFrom]
  cases Source.next.run s with
  | ok c s' => cases c <;> rfl
  | error e s' => rfl

/-- The longest span of characters for which `p` holds; it may be empty. -/
def span (p : Char → Bool) : Scan σ Text :=
  ⟨spanFrom p⟩

/-- A span that is absent when it is empty. -/
def nonemptySpan (p : Char → Bool) : Scan σ (Option Text) := do
  let t ← span p
  return if t.isEmpty then none else some t

/-- A word: characters that are not blank. -/
def word : Scan σ (Option Text) :=
  nonemptySpan (! isBlank ·)

/-- Leaves out the blanks at the front. -/
def dropBlanks : Scan σ Unit := do
  let _ ← span isBlank

/-- Everything up to an end of input. -/
def remainder : Scan σ Text :=
  span fun _ => true

/-! ## Progress -/

/-- What a span contains is no longer to be read. -/
theorem left_span {p : Char → Bool} {s s' : σ} {t : Text} (h : (span p).run s = .ok t s') :
    Source.left s' + t.length ≤ Source.left s := by
  change spanFrom p s = _ at h
  fun_induction spanFrom p s generalizing t with
  | case1 s c s₁ h₁ hp ih =>
    -- the character belongs to the span
    obtain ⟨u, hu, rfl⟩ := Outcome.map_eq_ok_iff.1 h
    have := ih hu
    have := Source.left_some h₁
    simp only [List.length_cons]
    omega
  | case2 s c s₁ h₁ hp =>
    -- the character ends the span and is handed back
    obtain ⟨_, hu, rfl⟩ := Outcome.map_eq_ok_iff.1 h
    have := Source.left_some h₁
    have : Source.left s' ≤ Source.left s₁ + 1 := left_putBack hu
    simp only [List.length_nil]
    omega
  | case3 s s₁ h₁ =>
    cases h
    exact Source.left_none h₁
  | case4 => cases h

theorem steady_span (p : Char → Bool) : Scan.Steady (span p : Scan σ Text) := by
  intro s s' t h
  have := left_span h
  omega

theorem steady_nonemptySpan (p : Char → Bool) :
    Scan.Steady (nonemptySpan p : Scan σ (Option Text)) :=
  .bind (steady_span p) fun _ => .pure _

/-- A non-empty span lowers what is to be read. -/
theorem left_nonemptySpan {p : Char → Bool} {s s' : σ} {t : Text}
    (h : (nonemptySpan p).run s = .ok (some t) s') : Source.left s' < Source.left s := by
  obtain ⟨u, s₁, h₁, h⟩ := Scan.run_bind_eq_ok_iff.1 h
  have hlen := left_span h₁
  cases u with
  | nil => cases h
  | cons c u =>
    cases h
    simp only [List.length_cons] at hlen
    omega

end Rescan
