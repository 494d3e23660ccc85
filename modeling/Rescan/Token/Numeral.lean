import Rescan.Token.Span

/-!
# Numbers

A number is a span of decimal digits, with a sign in front of it if the number may be negative. The
span is read as a whole, however long it is, and only then compared with the range: a number out of
range is a fault, and its text is consumed.
-/

namespace Rescan

open CharStream

variable {σ : Type} [CharStream σ]

/-- The value of decimal digits, the most significant one first. -/
def decimal (digits : Text) : Nat :=
  Nat.ofDigitChars 10 digits 0

/-- A span of ASCII digits. -/
def digits : Scan σ (Option Text) :=
  nonemptySpan Char.isDigit

/-- The value of digits, if it has at most 64 bits. -/
def magnitude (ds : Text) : Option Nat :=
  if decimal ds < UInt64.size then some (decimal ds) else none

/-- A number of at most 64 bits. -/
def unsigned : Scan σ (Option Nat) := do
  match ← digits with
  | none => return none
  | some ds =>
    match magnitude ds with
    | some m => return some m
    | none => Scan.fail (.outOfRange ds)

/-- A magnitude with a sign, if 64 bits in two's complement are enough. They reach one further below
zero than above. -/
def withSign (negative : Bool) (m : Nat) : Option Int :=
  if negative then
    if m ≤ 0x8000000000000000 then some (-m) else none
  else
    if m < 0x8000000000000000 then some m else none

/-- The number that digits stand for after a sign, if it is in range. A fault shows a negative sign,
but no positive one. -/
def inRange (negative : Bool) (ds : Text) : Scan σ Int :=
  match (magnitude ds).bind (withSign negative) with
  | some n => return n
  | none => Scan.fail (.outOfRange (if negative then '-' :: ds else ds))

/-- A number with an optional sign. A sign without digits is no number and is handed back. -/
def signed : Scan σ (Option Int) := do
  match ← peek with
  | none => return none
  | some c =>
    if c = '+' ∨ c = '-' then
      let sign ← Source.next
      match ← digits with
      | none =>
        handBack sign
        return none
      | some ds => return some (← inRange (c = '-') ds)
    else if c.isDigit then
      match ← digits with
      | none => return none
      | some ds => return some (← inRange false ds)
    else
      return none

/-! ## Ranges -/

/-- The number that digits stand for after a sign. -/
def signedDecimal (negative : Bool) (ds : Text) : Int :=
  if negative then -(decimal ds : Int) else decimal ds

/-- Whether a number has 64 bits in two's complement. -/
def isSigned64 (n : Int) : Bool :=
  -0x8000000000000000 ≤ n && n < 0x8000000000000000

/-- What fits with its sign has a magnitude that fits, so the two checks are a single one. -/
theorem magnitude_bind_withSign (negative : Bool) (ds : Text) :
    (magnitude ds).bind (withSign negative) =
      if isSigned64 (signedDecimal negative ds) then some (signedDecimal negative ds) else none := by
  unfold magnitude withSign isSigned64 signedDecimal
  generalize decimal ds = m
  -- with either sign the bound is below that of the magnitude
  have hsize : UInt64.size = 0x10000000000000000 := rfl
  cases negative <;> grind

omit [CharStream σ] in
/-- The number that digits stand for after a sign, checked at once. -/
theorem inRange_eq (negative : Bool) (ds : Text) :
    (inRange negative ds : Scan σ Int) =
      if isSigned64 (signedDecimal negative ds) then return signedDecimal negative ds
      else Scan.fail (.outOfRange (if negative then '-' :: ds else ds)) := by
  unfold inRange
  rw [magnitude_bind_withSign]
  cases isSigned64 (signedDecimal negative ds) <;> rfl

/-! ## Progress -/

theorem steady_inRange (negative : Bool) (ds : Text) :
    Scan.Steady (inRange negative ds : Scan σ Int) := by
  unfold inRange
  split
  · exact .pure _
  · exact .fail _

theorem steady_signed : Scan.Steady (signed : Scan σ (Option Int)) := by
  refine .bind steady_peek fun c => ?_
  cases c with
  | none => exact .pure _
  | some c =>
    simp only
    split
    · intro s s' v h
      obtain ⟨sign, s₁, h₁, h⟩ := Scan.run_bind_eq_ok_iff.1 h
      obtain ⟨ds, s₂, h₂, h⟩ := Scan.run_bind_eq_ok_iff.1 h
      have hds := steady_nonemptySpan _ h₂
      cases ds with
      | none =>
        -- the sign stands alone and is handed back
        obtain ⟨_, s₃, h₃, h⟩ := Scan.run_bind_eq_ok_iff.1 h
        cases h
        exact left_handBack_le h₁ hds h₃
      | some ds =>
        obtain ⟨v, s₃, h₃, h⟩ := Scan.run_bind_eq_ok_iff.1 h
        cases h
        have := steady_inRange _ _ h₃
        have := Scan.Steady.next h₁
        omega
    · split
      · refine .bind (steady_nonemptySpan _) fun ds => ?_
        cases ds with
        | none => exact .pure _
        | some ds => exact .bind (steady_inRange _ _) fun _ => .pure _
      · exact .pure _

end Rescan
