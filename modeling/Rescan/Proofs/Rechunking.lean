import Rescan.Proofs.Lifting
import Rescan.Proofs.Signals

/-!
# Pieces and interruptions cannot be seen

Bytes come in pieces, and a character may begin in one piece and end in another. Since a reader answers
by its signals alone, and characters are decoded from its answers, sources with the same signals do the
same: in the middle of a character, behind a failure, and whatever is built on them.

## Main definitions

* `ByteSource.SameSignals`: as many bytes taken, and the same signals still to come.

## Main statements

* `ByteSource.agree_nextByte`, `agree_trail`, `agree_next`: what one read keeps.
* `rechunking_invisible`: a session on two divisions of the same bytes.
-/

namespace Rescan

namespace ByteSource

/-! ## Sources with the same signals -/

/-- As many bytes have been taken, and the same signals are still to come. -/
structure SameSignals (b b' : ByteSource) : Prop where
  signals : b.signals = b'.signals
  consumed : b.consumed = b'.consumed

theorem SameSignals.bytes {b b' : ByteSource} (h : SameSignals b b') : b.bytes = b'.bytes := by
  rw [bytes_eq, bytes_eq, h.signals]

variable {b b' : ByteSource}

/-- The next byte, by the signal that is the next one of both. -/
theorem agree_nextByte (h : SameSignals b b') :
    Outcome.Agree (fun _ => False) SameSignals (fun _ => SameSignals)
      (nextByte.run b) (nextByte.run b') := by
  obtain ⟨script, consumed⟩ := b
  obtain ⟨script', consumed'⟩ := b'
  obtain ⟨hs, hc⟩ := h
  dsimp only at hc
  subst hc
  have hview := script.mapState_next
  have hview' := script'.mapState_next
  have hs : script.signals = script'.signals := hs
  -- seen by their signals, the two readers give one answer
  rw [← hs, ← hview] at hview'
  simp only [nextByte]
  cases hnext : script.next with
  | ok byte rest =>
    rw [hnext] at hview'
    obtain ⟨rest', hnext', hrest⟩ := Outcome.mapState_eq_ok_iff.1 hview'
    rw [hnext']
    cases byte <;> exact .ok ⟨hrest.symm, rfl⟩
  | error e rest =>
    rw [hnext] at hview'
    obtain ⟨rest', hnext', hrest⟩ := Outcome.mapState_eq_error_iff.1 hview'
    rw [hnext']
    exact .error ⟨hrest.symm, rfl⟩

/-- The rest of a sequence, wherever pieces end within it; the induction is on its length. -/
theorem agree_trail (start n : Nat) (h : SameSignals b b') :
    Outcome.Agree (fun _ => False) SameSignals (fun _ => SameSignals)
      ((trail start n).run b) ((trail start n).run b') := by
  induction n generalizing b b' with
  | zero => exact .ok h
  | succ n ih =>
    rw [run_trail_succ, run_trail_succ]
    apply (agree_nextByte h).bind
    intro byte b₁ b₁' _ h₁
    cases byte with
    | none => exact .error h₁
    | some byte => exact (ih h₁).map fun _ _ _ h₂ => h₂

/-- A character, or the fault that there is none, at the same offset. -/
theorem agree_next (h : SameSignals b b') :
    Outcome.Agree (fun _ => False) SameSignals (fun _ => SameSignals)
      (next.run b) (next.run b') := by
  rw [run_next, run_next, h.consumed]
  apply (agree_nextByte h).bind
  intro lead b₁ b₁' _ h₁
  cases lead with
  | none => exact .ok h₁
  | some lead =>
    dsimp only
    cases Utf8.announced lead with
    | none => exact .error h₁
    | some length =>
      -- the same bytes follow, in whatever pieces
      apply (agree_trail _ _ h₁).bind
      intro rest b₂ b₂' _ h₂
      cases Utf8.decode (lead :: rest) with
      | none => exact .error h₂
      | some c => exact .ok h₂

end ByteSource

/-- Sources of bytes with the same signals. -/
def SourceSimulation.rechunking : SourceSimulation ByteSource ByteSource where
  rel := ByteSource.SameSignals
  excused _ := False
  next := ByteSource.agree_next

/-! ## Sessions -/

/-- **Pieces and interruptions cannot be seen.** Take two scripts that divide the same bytes, between
the same failures and ends, in their own ways, with interruptions and empty pieces anywhere. Every step
of a session has the same result on both, and leaves the same characters pending, the same count of
characters and the same count of bytes. In the end the same bytes have not been taken. -/
theorem rechunking_invisible {script script' : Script} (h : Script.Rechunked script script')
    (options : Options) (steps : List Step) :
    let start := Buffered.start ({ script } : ByteSource) options
    let start' := Buffered.start ({ script := script' } : ByteSource) options
    List.Forall₂ (Outcome.Alike fun b b' => b.consumed = b'.consumed)
      (Scan.trace Step.perform steps start) (Scan.trace Step.perform steps start') ∧
    (Scan.finish Step.perform steps start).source.bytes =
      (Scan.finish Step.perform steps start').source.bytes := by
  intro start start'
  have hstart : start.Alike SourceSimulation.rechunking.rel start' :=
    ⟨⟨h.signals_eq, rfl⟩, rfl, rfl, rfl⟩
  constructor
  · have halike := SourceSimulation.rechunking.trace_alike (fun _ h => h) steps hstart
    exact halike.imp fun o o' h => h.mono fun b b' hb => hb.consumed
  · have hfinish := SourceSimulation.rechunking.finish_alike (fun _ h => h) steps hstart
    exact hfinish.source.bytes

/-- A reader that fails in the middle of a character and later ends within one: its bytes in two
divisions. -/
theorem rechunking_invisible_broken :
    let script : Script :=
      [.data [0x61, 0xE2], .failure "lost", .data [0x82, 0xC3, 0xA9], .data [0xE2], .pause]
    let script' : Script :=
      [.interrupt, .data [0x61], .data [0xE2], .failure "lost", .data [0x82, 0xC3], .data [],
        .interrupt, .data [0xA9, 0xE2], .pause]
    let steps : List Step := [.ask .word, .ask .next, .pull, .ask .peek, .ask .next, .ask .next]
    let start := Buffered.start ({ script } : ByteSource)
    let start' := Buffered.start ({ script := script' } : ByteSource)
    Script.Rechunked script script' ∧
      List.Forall₂ (Outcome.Alike fun b b' => b.consumed = b'.consumed)
        (Scan.trace Step.perform steps start) (Scan.trace Step.perform steps start') ∧
      (Scan.finish Step.perform steps start).source.bytes =
        (Scan.finish Step.perform steps start').source.bytes := by
  intro script script' steps start start'
  have h : Script.Rechunked script script' := Script.rechunked_iff.2 (by decide)
  exact ⟨h, rechunking_invisible h {} steps⟩

end Rescan
