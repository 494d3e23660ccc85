import Rescan.Proofs.Natural

/-!
# Numbers out of range

When a number is found to be out of range it has been consumed, the sign, the zeros and the other
digits, and the fault shows what it looked like. It shows a minus sign, but a plus sign has been
forgotten by then. So what the fault shows is what was consumed, unless that began with a plus sign.

## Main statements

* `Stack.unsigned_outOfRange`, `Stack.signed_outOfRange`: what has been read when the fault occurs.
* `outOfRange_shown`: what is consumed for a number out of range, and what the fault shows of it.
-/

namespace Rescan

open Buffered CharStream

/-! ## Numbers out of range on the stack -/

namespace Stack

variable {x numeral : Text} {s : Stack}

/-- The fault shows the digits, and all of them have been read. -/
theorem unsigned_outOfRange (h : unsigned.run (⟨x⟩ : Stack) = .error (.outOfRange numeral) s) :
    numeral = x.takeWhile Char.isDigit ∧ x = numeral ++ s.chars := by
  rw [unsigned_run] at h
  split at h
  · cases h
  · split at h
    · cases h
    · cases h
      exact ⟨rfl, List.takeWhile_append_dropWhile.symm⟩

/-- The fault shows the sign and the digits, but no plus sign, and all of them have been read. -/
theorem signed_outOfRange (h : signed.run (⟨x⟩ : Stack) = .error (.outOfRange numeral) s) :
    x = x.sign.toList ++ x.digitsBehindSign ++ s.chars ∧
      numeral = if x.sign = some '+' then x.digitsBehindSign
        else x.sign.toList ++ x.digitsBehindSign := by
  rw [signed_run, inRange_eq] at h
  split at h
  · cases h
  · split at h
    · cases h
    · cases h
      refine ⟨?_, ?_⟩
      · rw [← Text.take_number, List.take_append_drop]
      · -- a sign that is not negative can only be a plus sign
        cases hs : x.sign with
        | none => rfl
        | some c =>
          obtain rfl | rfl := (Text.sign_eq_some_iff.1 hs).2
          · rfl
          · rfl

end Stack

/-! ## What the fault shows -/

/-- **The fault shows what was consumed, but for a plus sign.** Take a buffered passage, of any capacity
and with anything pending. If a number without a sign is out of range, its digits have been consumed, as
many as came next, and the fault shows them. If a number with an optional sign is out of range, the sign
and the digits have been consumed, and the fault shows them too, unless the sign is a plus sign: then
it shows the digits alone, which is not what was consumed. -/
theorem outOfRange_shown {b b' : Buffered Passage} {numeral : Text} :
    (unsigned.run b = .error (.outOfRange numeral) b' →
      numeral = b.stream.takeWhile Char.isDigit ∧ b.Takes numeral b') ∧
    (signed.run b = .error (.outOfRange numeral) b' →
      let s := b.stream.sign
      let ds := b.stream.digitsBehindSign
      b.Takes (s.toList ++ ds) b' ∧ numeral = (if s = some '+' then ds else s.toList ++ ds) ∧
        (b.Takes numeral b' ↔ s ≠ some '+')) := by
  constructor
  · intro h
    obtain ⟨s, hrun, hs, w, hw⟩ := stack_of_run_error Simulation.tracks_unsigned h rfl
    obtain ⟨hnumeral, hstream⟩ := Stack.unsigned_outOfRange hrun
    rw [hs] at hstream
    exact ⟨hnumeral, hw.of_append hstream⟩
  · intro h s ds
    obtain ⟨t, hrun, ht, w, hw⟩ := stack_of_run_error Simulation.tracks_signed h rfl
    obtain ⟨hstream, hnumeral⟩ := Stack.signed_outOfRange hrun
    rw [ht] at hstream
    have htakes : b.Takes (s.toList ++ ds) b' := hw.of_append hstream
    refine ⟨htakes, hnumeral, ?_⟩
    by_cases hplus : s = some '+'
    · -- one character less than was consumed
      have hshort : numeral = ds := hnumeral.trans (if_pos hplus)
      have hnot : ¬ b.Takes numeral b' := by
        intro hshown
        have hlength : numeral.length = (s.toList ++ ds).length :=
          Nat.add_left_cancel (hshown.offset.symm.trans htakes.offset)
        simp [hshort, hplus] at hlength
      exact iff_of_false hnot (not_not.2 hplus)
    · rw [hnumeral.trans (if_neg hplus)]
      exact iff_of_true htakes hplus

/-- The least number that is too large without a sign, behind a zero, and the largest one that is too
small with a sign. -/
theorem outOfRange_shown_bounds :
    let wide : Text :=
      ['1', '8', '4', '4', '6', '7', '4', '4', '0', '7', '3', '7', '0', '9', '5', '5', '1', '6', '1',
        '6']
    let below : Text :=
      ['9', '2', '2', '3', '3', '7', '2', '0', '3', '6', '8', '5', '4', '7', '7', '5', '8', '0', '9']
    let b (pending rest : Text) : Buffered Passage := { source := ⟨rest⟩, pending, capacity := 2 }
    (∃ b', unsigned.run (b ['0'] wide) = .error (.outOfRange ('0' :: wide)) b' ∧
      (b ['0'] wide).Takes ('0' :: wide) b') ∧
    (∃ b', signed.run (b ['-'] below) = .error (.outOfRange ('-' :: below)) b' ∧
      (b ['-'] below).Takes ('-' :: below) b') := by
  intro wide below b
  have hwide : unsigned.run (b ['0'] wide) = .error (.outOfRange ('0' :: wide))
      { source := ⟨[]⟩, capacity := 2, offset := 21 } := by decide +kernel
  have hbelow : signed.run (b ['-'] below) = .error (.outOfRange ('-' :: below))
      { source := ⟨[]⟩, capacity := 2, offset := 20 } := by decide +kernel
  exact ⟨⟨_, hwide, (outOfRange_shown.1 hwide).2⟩,
    ⟨_, hbelow, (outOfRange_shown.2 hbelow).2.2.2 (by decide)⟩⟩

/-- Behind a plus sign, the least number that is too large with a sign. All of it has been read, but
the fault does not show the plus sign. -/
theorem outOfRange_plus_forgotten :
    let large : Text :=
      ['9', '2', '2', '3', '3', '7', '2', '0', '3', '6', '8', '5', '4', '7', '7', '5', '8', '0', '8']
    let b : Buffered Passage := { source := ⟨'+' :: large⟩, capacity := 2 }
    ∃ b', signed.run b = .error (.outOfRange large) b' ∧ b'.stream = [] ∧
      large ++ b'.stream ≠ b.stream := by
  intro large b
  let b' : Buffered Passage := { source := ⟨[]⟩, capacity := 2, offset := 20 }
  have hrun : signed.run b = .error (.outOfRange large) b' := by decide +kernel
  exact ⟨b', hrun, rfl, by decide⟩

end Rescan
