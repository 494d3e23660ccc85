import Rescan.Proofs.Integer

/-!
# Numbers without a sign

A number without a sign is what the digits at the front of a text stand for, however many they are and
however many of them are zeros at the beginning. All of them are read before their number is compared
with the range. So the same text has been consumed whether the number has 64 bits or not, and where it
has not, the fault shows that text.

## Main statements

* `Stack.unsigned_run`: reading a number without a sign, by the parts of the text.
* `unsigned_exact`: which number is read, when there is none or it is out of range, and what is left.
-/

namespace Rescan

open Buffered CharStream Text

/-- Without digits there is no number, and with digits they are read and then compared with the
range. -/
theorem Stack.unsigned_run (x : Text) :
    let ds := x.takeWhile Char.isDigit
    let rest := x.dropWhile Char.isDigit
    unsigned.run (⟨x⟩ : Stack) =
      if ds = [] then .ok none ⟨x⟩
      else if decimal ds < UInt64.size then .ok (some (decimal ds)) ⟨rest⟩
      else .error (.outOfRange ds) ⟨rest⟩ := by
  intro ds rest
  have hx : ds ++ rest = x := List.takeWhile_append_dropWhile
  have hspan : (span Char.isDigit).run (⟨x⟩ : Stack) = .ok ds ⟨rest⟩ := span_run_eq Char.isDigit x
  rw [unsigned, Scan.run_bind, digits, nonemptySpan, Scan.run_bind, hspan, Outcome.bind_ok]
  cases hds : ds with
  | nil =>
    rw [hds, List.nil_append] at hx
    simp [hx]
  | cons d ds =>
    simp only [List.isEmpty_cons, Bool.false_eq_true, if_false, Scan.run_pure, Outcome.bind_ok,
      reduceCtorEq, magnitude]
    by_cases hsize : decimal (d :: ds) < UInt64.size <;> simp [hsize]

/-- **A number without a sign is read exactly.** Take a buffered passage with capacity for a character
and no more pending than its capacity. At the front of its stream there are digits, as many as come
next, and they stand for a number. Without digits there is no number, and nothing is consumed. With
digits they are consumed: if the number is less than `2 ^ 64` it is the answer, and otherwise it is said
to be out of range, and the fault shows the digits. -/
theorem unsigned_exact {b : Buffered Passage} (hb : b.pending.length ≤ b.capacity)
    (hn : 1 ≤ b.capacity) :
    let ds := b.stream.takeWhile Char.isDigit
    let v := placeValue ds
    let rest := b.stream.drop ds.length
    (ds = [] → ∃ b', unsigned.run b = .ok none b' ∧ b'.stream = b.stream ∧ b'.offset = b.offset) ∧
    (ds ≠ [] → v < 2 ^ 64 → ∃ b', unsigned.run b = .ok (some v) b' ∧ b'.stream = rest ∧
      b'.offset = b.offset + ds.length) ∧
    (ds ≠ [] → 2 ^ 64 ≤ v → ∃ b', unsigned.run b = .error (.outOfRange ds) b' ∧ b'.stream = rest ∧
      b'.offset = b.offset + ds.length) := by
  intro ds v rest
  have hx : ds ++ rest = b.stream := List.prefix_iff_eq_append.1 (List.takeWhile_prefix _)
  have hdrop : b.stream.dropWhile Char.isDigit = rest :=
    List.append_cancel_left (List.takeWhile_append_dropWhile.trans hx.symm)
  have hstack : unsigned.run (⟨b.stream⟩ : Stack) =
      if ds = [] then .ok none ⟨b.stream⟩
      else if v < 2 ^ 64 then .ok (some v) ⟨rest⟩
      else .error (.outOfRange ds) ⟨rest⟩ := by
    rw [Stack.unsigned_run, hdrop, decimal_eq_placeValue]
    rfl
  have htracks := Simulation.tracks_unsigned (S := evaluating b)
  have hfits : Scan.Fits 1 (unsigned : Scan (Buffered Passage) _) := .unsigned
  -- what is gone from the stream are the digits
  have htaken {b' : Buffered Passage} (hrest : b'.stream = rest) (hw : ∃ w, b.Takes w b') :
      b'.offset = b.offset + ds.length := by
    obtain ⟨w, hw⟩ := hw
    exact (hw.of_append (hrest ▸ hx.symm)).offset
  refine ⟨fun hnil => ?_, fun hne hin => ?_, fun hne hout => ?_⟩
  · rw [if_pos hnil] at hstack
    obtain ⟨b', hrun, hs, w, hw⟩ := run_of_stack_ok htracks hfits hn hb hstack
    have hnothing : b.Takes [] b' := hw.of_append hs.symm
    exact ⟨b', hrun, hs, hnothing.offset⟩
  · rw [if_neg hne, if_pos hin] at hstack
    obtain ⟨b', hrun, hs, hw⟩ := run_of_stack_ok htracks hfits hn hb hstack
    exact ⟨b', hrun, hs, htaken hs hw⟩
  · rw [if_neg hne, if_neg (Nat.not_lt.2 hout)] at hstack
    obtain ⟨b', hrun, hs, hw⟩ := run_of_stack_error htracks hfits hn hb hstack
    exact ⟨b', hrun, hs, htaken hs hw⟩

/-- The largest number of 64 bits behind zeros, of which one is pending and fills the buffer, and before
a digit that is none of the ASCII ones; the next number; and digits behind a sign. -/
theorem unsigned_exact_bounds :
    let largest : Text :=
      ['1', '8', '4', '4', '6', '7', '4', '4', '0', '7', '3', '7', '0', '9', '5', '5', '1', '6', '1',
        '5']
    let wide : Text :=
      ['1', '8', '4', '4', '6', '7', '4', '4', '0', '7', '3', '7', '0', '9', '5', '5', '1', '6', '1',
        '6']
    let b (t : Text) : Buffered Passage :=
      { source := ⟨'0' :: t ++ ['\u0663']⟩, pending := ['0'], capacity := 1 }
    let signed : Buffered Passage := { source := ⟨['7']⟩, pending := ['+'], capacity := 1 }
    (∃ b', unsigned.run (b largest) = .ok (some (2 ^ 64 - 1)) b' ∧ b'.stream = ['\u0663'] ∧
      b'.offset = 22) ∧
    (∃ b', unsigned.run (b wide) = .error (.outOfRange ('0' :: '0' :: wide)) b' ∧
      b'.stream = ['\u0663'] ∧ b'.offset = 22) ∧
    ∃ b', unsigned.run signed = .ok none b' ∧ b'.stream = ['+', '7'] ∧ b'.offset = 0 := by
  intro largest wide b signed
  obtain ⟨-, hin, -⟩ := unsigned_exact (b := b largest) (by decide) (by decide)
  obtain ⟨-, -, hout⟩ := unsigned_exact (b := b wide) (by decide) (by decide)
  obtain ⟨habsent, -, -⟩ := unsigned_exact (b := signed) (by decide) (by decide)
  refine ⟨?_, ?_, habsent rfl⟩
  · exact hin (by decide) (by decide)
  · exact hout (by decide) (by decide)

end Rescan
