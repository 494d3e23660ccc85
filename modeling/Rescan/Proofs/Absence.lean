import Rescan.Proofs.Requests
import Rescan.Proofs.View

/-!
# Tokens that are absent

A token that is not there leaves the stream untouched: everything that was read for it has been handed
back, in order, and the counter is where it was. This follows from what the window of a recognizer is
at its end, since under the relation `conserving` the window is what the stream has lost.

## Main statements

* `perform_consumes`: a request that only reads splits the stream into what it has consumed and the
  rest.
* `absent_untouched`: if the token asked for is absent, nothing has been consumed.
-/

namespace Rescan

open Buffered

variable {σ : Type} [Prepared σ]

/-! ## Consumption -/

/-- One run of a buffered source beside itself, with an account of what it has consumed: the window
is what was taken off the stream of `b₀`, and the counter has grown by its length. -/
def conserving (b₀ : Buffered σ) : Simulation (Buffered σ) (Buffered σ) where
  rel w b b' := b = b' ∧ b₀.stream = w ++ b.stream ∧ b.offset = b₀.offset + w.length
  ended _ _ := True
  failed _ _ := True
  excused _ := False
  next := by
    rintro w b _ ⟨rfl, hs, ho⟩
    apply Outcome.Agree.self
    · intro c b' h
      obtain ⟨hs', ho'⟩ := Takes.next ⟨hs, ho⟩ h
      exact ⟨⟨rfl, hs', ho'⟩, fun _ => trivial⟩
    · exact fun _ _ _ => trivial
  putBack := by
    rintro w u b _ ⟨rfl, hs, ho⟩
    apply Outcome.Agree.self
    · intro _ b' h
      obtain ⟨hs', ho'⟩ := Takes.putBack ⟨hs, ho⟩ h
      exact ⟨rfl, hs', ho'⟩
    · exact fun _ _ _ => trivial
  fail _ := trivial

/-- A request that only reads splits the stream into what it has consumed and what is still there.
If its token is absent, and is to be restored, then it has consumed nothing. -/
theorem perform_consumes {b b' : Buffered σ} {r : Request} {reply : Reply}
    (hr : r.isReading = true) (hb : r ≠ .dropBlankLines) (h : r.perform.run b = .ok reply b') :
    ∃ v, b.stream = v ++ b'.stream ∧ b'.offset = b.offset + v.length ∧
      (r.isAbsent reply = true → r.isRestoring = true → v = []) := by
  have hstart : (conserving b).rel [] b b := ⟨rfl, rfl, rfl⟩
  obtain ⟨_, -, v, hv, rfl, hs, ho⟩ :=
    ((Simulation.tracks_perform r hr hb).agree hstart).exists_of_ok h
  exact ⟨v, hs, ho, hv⟩

/-! ## Absence -/

/-- A request that can find its token absent is not one that hands something back. -/
theorem isReading_of_isAbsent {r : Request} {reply : Reply} (h : r.isAbsent reply = true) :
    r.isReading = true ∧ r ≠ .dropBlankLines := by
  cases r <;> simp_all [Request.isReading, Request.isAbsent]

/-- Without restoring, an absent delimited literal costs the one character that was looked at. -/
theorem delimited_absent {b b' : Buffered σ} {d : Delimiters} (hd : d.restore = false)
    (h : (delimited d).run b = .ok none b') : ∃ c, Source.next.run b = .ok c b' := by
  obtain ⟨c, b₁, h₁, h⟩ := Scan.run_bind_eq_ok_iff.1 h
  by_cases hc : c = some d.opening
  · -- after the opening delimiter there is a literal or a fault
    simp only [hc, if_true] at h
    obtain ⟨t, b₂, h₂, h⟩ := Scan.run_bind_eq_ok_iff.1 h
    cases h
  · simp only [hc, hd, if_false] at h
    cases h
    exact ⟨c, h₁⟩

/-- **Absent means untouched.** If the reply to a request says that its token is absent, the stream
and the counter are as they were. A delimited literal that is not to be restored has instead taken
the first character off the stream and counted it, or nothing if there was an end. -/
theorem absent_untouched {b b' : Buffered σ} {r : Request} {reply : Reply}
    (h : r.perform.run b = .ok reply b') (ha : r.isAbsent reply = true) :
    (r.isRestoring = true → b'.stream = b.stream ∧ b'.offset = b.offset) ∧
    (r.isRestoring = false → ∃ c, Source.next.run b = .ok c b' ∧
      b.stream = c.toList ++ b'.stream ∧ b'.offset = b.offset + c.toList.length) := by
  constructor
  · intro hrestore
    obtain ⟨hr, hb⟩ := isReading_of_isAbsent ha
    obtain ⟨v, hs, ho, hv⟩ := perform_consumes hr hb h
    rw [hv ha hrestore] at hs ho
    exact ⟨hs.symm, ho⟩
  · intro hkeep
    -- only a delimited literal can be asked not to restore
    cases r with
    | delimited d =>
      obtain ⟨a, b₁, h₁, h⟩ := Scan.run_bind_eq_ok_iff.1 h
      cases h
      cases a with
      | some t => cases ha
      | none =>
        obtain ⟨c, hc⟩ := delimited_absent hkeep h₁
        exact ⟨c, hc, stream_next hc⟩
    | _ => cases hkeep

/-- A lone sign that was pending, before the end in the middle of a feed; and a bracket that is not
there. -/
theorem absent_untouched_lone_sign :
    (let b : Buffered Feed :=
        { source := ⟨[some 'x', none, some 'y']⟩, pending := ['+'], capacity := 2 }
      ∃ b', Request.signed.perform.run b = .ok (.number none) b' ∧ b' ≠ b ∧
        b'.stream = b.stream ∧ b'.offset = b.offset) ∧
    (let b : Buffered Passage := { source := ⟨['y']⟩, pending := ['x'], capacity := 0 }
      let d : Delimiters := .between '[' ']'
      ∃ b', (Request.delimited d).perform.run b = .ok (.text none) b' ∧
        ∃ c, Source.next.run b = .ok c b' ∧ b.stream = c.toList ++ b'.stream ∧
          b'.offset = b.offset + c.toList.length) := by
  constructor
  · intro b
    have h : Request.signed.perform.run b = .ok (.number none)
        { source := ⟨[none, some 'y']⟩, pending := ['+', 'x'], capacity := 2 } := by
      decide +kernel
    exact ⟨_, h, by decide, (absent_untouched h rfl).1 rfl⟩
  · intro b d
    have h : (Request.delimited d).perform.run b = .ok (.text none)
        { source := ⟨['y']⟩, pending := [], capacity := 0, offset := 1 } := by
      decide +kernel
    exact ⟨_, h, (absent_untouched h rfl).2 rfl⟩

end Rescan
