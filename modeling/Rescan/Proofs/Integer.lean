import Mathlib.Data.Nat.Digits.Defs
import Rescan.Proofs.Evaluation
import Rescan.Proofs.Plain

/-!
# Numbers with a sign

A number is what its digits stand for, with any number of zeros before them, and a sign that comes right
before the digits may negate it. Whether it has 64 bits is only asked once all of it has been read, so
it is consumed in the same way whether it does or not. A sign without digits is not consumed.

## Main definitions

* `Text.sign`, `Text.digitsBehindSign`: the parts of the number at the front of a text.
* `Text.placeValue`: the number that digits stand for.

## Main statements

* `decimal_eq_placeValue`: digits are taken for the number they stand for.
* `Stack.signed_run`: reading a number, by the parts of the text.
* `signed_exact`: which number is read, when there is none or it is out of range, and what is left.
-/

namespace Rescan

open Buffered CharStream

/-! ## The number at the front of a text -/

namespace Text

/-- The sign at the front of a text, if there is one. -/
def sign (x : Text) : Option Char :=
  x.head?.filter fun c => c == '+' || c == '-'

/-- The digits that come next behind the sign, as many as there are. -/
def digitsBehindSign (x : Text) : Text :=
  (x.drop x.sign.toList.length).takeWhile Char.isDigit

/-- The number that digits stand for: every digit counts for ten times as much as the next one, and the
last one for itself. -/
def placeValue (ds : Text) : Nat :=
  Nat.ofDigits 10 (ds.reverse.map fun c => c.toNat - '0'.toNat)

variable {x : Text} {c : Char}

theorem sign_eq_some_iff : x.sign = some c ↔ x.head? = some c ∧ (c = '+' ∨ c = '-') := by
  simp [sign, Option.filter_eq_some_iff]

theorem sign_eq_none_iff : x.sign = none ↔ ∀ c ∈ x.head?, ¬ (c = '+' ∨ c = '-') := by
  simp [sign, Option.filter_eq_none_iff]

/-- A text is its sign, its digits, and a rest that does not begin with another digit. -/
theorem exists_behind_number (x : Text) :
    ∃ rest, x = x.sign.toList ++ (x.digitsBehindSign ++ rest) ∧
      (∀ c ∈ x.digitsBehindSign, c.isDigit = true) ∧ ∀ c ∈ rest.head?, c.isDigit = false := by
  have hsign : x = x.sign.toList ++ x.drop x.sign.toList.length := by
    cases hs : x.sign with
    | none => rfl
    | some s =>
      obtain ⟨y, rfl⟩ := List.head?_eq_some_iff.1 (sign_eq_some_iff.1 hs).1
      rfl
  refine ⟨(x.drop x.sign.toList.length).dropWhile Char.isDigit, ?_, fun _ => List.mem_takeWhile_imp,
    fun _ => eq_false_of_head?_dropWhile⟩
  rw [digitsBehindSign, List.takeWhile_append_dropWhile, ← hsign]

theorem length_number (x : Text) :
    x.sign.toList.length + x.digitsBehindSign.length +
      (x.drop (x.sign.toList.length + x.digitsBehindSign.length)).length = x.length := by
  obtain ⟨rest, hx, -, -⟩ := exists_behind_number x
  have hle := congrArg List.length hx
  simp only [List.length_append] at hle
  rw [List.length_drop]
  omega

theorem take_number (x : Text) :
    x.take (x.sign.toList.length + x.digitsBehindSign.length) =
      x.sign.toList ++ x.digitsBehindSign := by
  obtain ⟨rest, hx, -, -⟩ := exists_behind_number x
  generalize x.sign.toList = s at hx ⊢
  generalize x.digitsBehindSign = ds at hx ⊢
  rw [hx, ← List.append_assoc, List.take_left' (List.length_append ..)]

end Text

open Text

/-- Reading digits one by one, the number read so far moves up by a place; the induction is on the
digits, of which the first one ends up at the highest place. -/
theorem decimal_eq_placeValue (ds : Text) : decimal ds = placeValue ds := by
  induction ds with
  | nil => rfl
  | cons c ds ih =>
    have hplace : placeValue (c :: ds) = placeValue ds + 10 ^ ds.length * (c.toNat - '0'.toNat) := by
      simp [placeValue, Nat.ofDigits_append]
    rw [hplace, ← ih, decimal, Nat.ofDigitChars_cons, Nat.ofDigitChars_eq_ofDigitChars_zero, decimal,
      Nat.mul_zero, Nat.zero_add, Nat.add_comm]

/-! ## Reading a number -/

/-- Without digits there is no number, and with digits they are read and then compared with the
range. -/
theorem Stack.signed_run (x : Text) :
    signed.run (⟨x⟩ : Stack) =
      if x.digitsBehindSign = [] then .ok none ⟨x⟩
      else ((inRange (x.sign == some '-') x.digitsBehindSign).run
        ⟨x.drop (x.sign.toList.length + x.digitsBehindSign.length)⟩).map some := by
  obtain ⟨rest, hx, hds, hrest⟩ := exists_behind_number x
  have hsign (c : Char) : x.sign = some c ↔ x.head? = some c ∧ (c = '+' ∨ c = '-') :=
    sign_eq_some_iff
  have hnone : x.sign = none ↔ ∀ c ∈ x.head?, ¬ (c = '+' ∨ c = '-') := sign_eq_none_iff
  generalize x.sign = sign at hx hsign hnone ⊢
  generalize x.digitsBehindSign = ds at hx hds ⊢
  subst hx
  have hdrop : (sign.toList ++ (ds ++ rest)).drop (sign.toList.length + ds.length) = rest := by
    rw [← List.append_assoc, List.drop_left' (by rw [List.length_append])]
  rw [hdrop]
  cases sign with
  | none =>
    have hneg : ((none : Option Char) == some '-') = false := rfl
    split
    · next hnil =>
      subst hnil
      exact Stack.signed_absent hrest fun s y hy hs => absurd hs (hnone.1 rfl s (hy ▸ rfl))
    · next hne =>
      rw [hneg, Option.toList_none, List.nil_append, Stack.signed_run_digits hds hne hrest]
  | some s =>
    have hs : s = '+' ∨ s = '-' := ((hsign s).1 rfl).2
    split
    · next hnil =>
      -- the sign is no digit, and there is none behind it
      subst hnil
      have hdigit : s.isDigit = false := by rcases hs with rfl | rfl <;> decide
      apply Stack.signed_absent
      · intro c hc
        cases hc
        exact hdigit
      · intro s' y hy _
        cases hy
        exact hrest
    · next hne =>
      have hneg : (some s == some '-') = decide (s = '-') := Bool.eq_iff_iff.2 (by simp)
      rw [hneg, Option.toList_some, List.singleton_append, Stack.signed_run_sign hds hne hrest hs]

/-! ## Numbers of 64 bits -/

/-- **A number is read exactly.** Take a buffered passage with capacity for two characters and no more
pending than its capacity. Behind an optional sign at the front of its stream there are digits, as many
as come next, and they stand for a number, which a minus sign negates. Without digits there is no
number, and nothing is consumed. With digits the sign and the digits are consumed: if the number lies
between `-2 ^ 63` and `2 ^ 63 - 1` it is the answer, and otherwise it is said to be out of range. -/
theorem signed_exact {b : Buffered Passage} (hb : b.pending.length ≤ b.capacity)
    (hn : 2 ≤ b.capacity) :
    let s := b.stream.sign
    let ds := b.stream.digitsBehindSign
    let v : Int := if s = some '-' then -placeValue ds else placeValue ds
    let rest := b.stream.drop (s.toList.length + ds.length)
    (ds = [] → ∃ b', signed.run b = .ok none b' ∧ b'.stream = b.stream ∧ b'.offset = b.offset) ∧
    (ds ≠ [] → -2 ^ 63 ≤ v ∧ v ≤ 2 ^ 63 - 1 →
      ∃ b', signed.run b = .ok (some v) b' ∧ b'.stream = rest ∧
        b'.offset = b.offset + (s.toList.length + ds.length)) ∧
    (ds ≠ [] → ¬ (-2 ^ 63 ≤ v ∧ v ≤ 2 ^ 63 - 1) →
      ∃ numeral b', signed.run b = .error (.outOfRange numeral) b' ∧ b'.stream = rest ∧
        b'.offset = b.offset + (s.toList.length + ds.length)) := by
  intro s ds v rest
  have htracks := Simulation.tracks_signed (S := evaluating b)
  have hfits : Scan.Fits 2 (signed : Scan (Buffered Passage) _) := .signed
  have hstack := Stack.signed_run b.stream
  have hv : signedDecimal (s == some '-') ds = v := by
    simp only [v, signedDecimal, decimal_eq_placeValue, beq_iff_eq]
  have hrange : isSigned64 v = true ↔ -2 ^ 63 ≤ v ∧ v ≤ 2 ^ 63 - 1 := by
    simp [isSigned64]
    omega
  -- the counter grows by what is gone from the stream
  have hlength : s.toList.length + ds.length + rest.length = b.stream.length :=
    length_number b.stream
  have hoffset {b' : Buffered Passage} (hrest : b'.stream = rest) (hw : ∃ w, b.Takes w b') :
      b'.offset = b.offset + (s.toList.length + ds.length) := by
    obtain ⟨w, hw⟩ := hw
    have hcount := hw.offset_add_length
    rw [hrest] at hcount
    omega
  refine ⟨fun hnil => ?_, fun hne hin => ?_, fun hne hout => ?_⟩
  · rw [if_pos hnil] at hstack
    obtain ⟨b', hrun, hrest, w, hw⟩ := run_of_stack_ok htracks hfits hn hb hstack
    have hcount := hw.offset_add_length
    rw [hrest] at hcount
    exact ⟨b', hrun, hrest, Nat.add_right_cancel hcount⟩
  · rw [if_neg hne, inRange_eq, hv, if_pos (hrange.2 hin)] at hstack
    obtain ⟨b', hrun, hrest, hw⟩ := run_of_stack_ok htracks hfits hn hb hstack
    exact ⟨b', hrun, hrest, hoffset hrest hw⟩
  · rw [if_neg hne, inRange_eq, hv, if_neg (mt hrange.1 hout)] at hstack
    obtain ⟨b', hrun, hrest, hw⟩ := run_of_stack_error htracks hfits hn hb hstack
    exact ⟨_, b', hrun, hrest, hoffset hrest hw⟩

/-- The least number of 64 bits, with a zero before its digits; the next one below it, and the one that
takes 65 bits without its sign; and a sign without digits. -/
theorem signed_exact_bounds :
    let b (t : Text) : Buffered Passage := { source := ⟨t⟩, pending := ['-', '0'], capacity := 2 }
    let least : Text :=
      ['9', '2', '2', '3', '3', '7', '2', '0', '3', '6', '8', '5', '4', '7', '7', '5', '8', '0',
        '8', 'x']
    let below : Text :=
      ['9', '2', '2', '3', '3', '7', '2', '0', '3', '6', '8', '5', '4', '7', '7', '5', '8', '0',
        '9', 'x']
    let wide : Text :=
      ['1', '8', '4', '4', '6', '7', '4', '4', '0', '7', '3', '7', '0', '9', '5', '5', '1', '6',
        '1', '6', 'x']
    let lone : Buffered Passage := { source := ⟨['x']⟩, pending := ['+'], capacity := 2 }
    (∃ b', signed.run (b least) = .ok (some (-2 ^ 63)) b' ∧ b'.stream = ['x'] ∧ b'.offset = 21) ∧
    (∃ numeral b', signed.run (b below) = .error (.outOfRange numeral) b' ∧ b'.stream = ['x'] ∧
      b'.offset = 21) ∧
    (∃ numeral b', signed.run (b wide) = .error (.outOfRange numeral) b' ∧ b'.stream = ['x'] ∧
      b'.offset = 22) ∧
    ∃ b', signed.run lone = .ok none b' ∧ b'.stream = ['+', 'x'] ∧ b'.offset = 0 := by
  intro b least below wide lone
  obtain ⟨-, hin, -⟩ := signed_exact (b := b least) (by decide) (by decide)
  obtain ⟨-, -, hbelow⟩ := signed_exact (b := b below) (by decide) (by decide)
  obtain ⟨-, -, hwide⟩ := signed_exact (b := b wide) (by decide) (by decide)
  obtain ⟨habsent, -, -⟩ := signed_exact (b := lone) (by decide) (by decide)
  refine ⟨?_, ?_, ?_, habsent rfl⟩
  · exact hin (by decide) (by decide)
  · exact hbelow (by decide) (by decide)
  · exact hwide (by decide) (by decide)

end Rescan
