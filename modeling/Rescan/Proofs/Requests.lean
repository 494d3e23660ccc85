import Rescan.Proofs.Recognition
import Rescan.Session

/-!
# Requests under a simulation

The statements on recognizers, collected for requests. What may be asked depends on how much of the
window the simulation needs: all of it, its length, or nothing.

## Main statements

* `Simulation.tracks_perform`: requests that only read, blank lines aside, under every simulation.
* `Simulation.Loose.tracks_perform`: all requests that only read, under a loose one.
* `Simulation.Free.tracks_perform`: all requests, under a free one.
-/

namespace Rescan

/-! ## Kinds of requests -/

namespace Request

/-- Whether a request only reads: it hands nothing back that the caller chooses. -/
def isReading : Request → Bool
  | handBack _ => false
  | putBack _ => false
  | _ => true

/-- Whether a request leaves everything where it was when its token is absent. Only a delimited
literal may be asked not to. -/
def isRestoring : Request → Bool
  | delimited d => d.restore
  | _ => true

/-- Whether the reply to a request says that the token asked for is absent. -/
def isAbsent : Request → Reply → Bool
  | delimited _, .text none => true
  | digits, .text none => true
  | line, .text none => true
  | word, .text none => true
  | unsigned, .number none => true
  | signed, .number none => true
  | boolean, .truth none => true
  | truth _, .truth none => true
  | exactly _, .truth (some false) => true
  | _, _ => false

end Request

namespace Simulation

variable {σ τ : Type} [CharStream σ] [CharStream τ] {S : Simulation σ τ}

/-! ## One request -/

/-- What is known of a token that is absent carries over to the reply. -/
theorem Tracks.reply {α : Type} {x : Scan σ (Option α)} {y : Scan τ (Option α)} {r : Request}
    {f : Option α → Reply} (h : S.Tracks [] (fun a v => a = none → v = []) x y)
    (hf : ∀ a, r.isAbsent (f (some a)) = false) :
    S.Tracks [] (fun reply v => r.isAbsent reply = true → r.isRestoring = true → v = [])
      (do return f (← x)) (do return f (← y)) := by
  apply h.bind
  intro a v hv
  apply Tracks.pure
  cases a with
  | none => exact fun _ _ => hv rfl
  | some a => simp [hf]

/-- A request that only reads, and is not the one for blank lines, is tracked by every simulation.
If its token is absent the window is empty at the end. -/
theorem tracks_perform (r : Request) (hr : r.isReading = true) (hb : r ≠ .dropBlankLines) :
    S.Tracks [] (fun reply v => r.isAbsent reply = true → r.isRestoring = true → v = [])
      (r.perform : Scan σ Reply) (r.perform : Scan τ Reply) := by
  cases r with
  | next => exact Tracks.next.bind fun _ _ _ => .pure (by simp [Request.isAbsent])
  | peek => exact Tracks.peek.bind fun _ _ hv => .pure fun _ _ => hv
  | handBack c => cases hr
  | putBack t => cases hr
  | dropBlankLines => exact absurd rfl hb
  | delimited d =>
    -- the only token whose absence may consume something
    apply (tracks_delimited d).bind
    intro a v hv
    apply Tracks.pure
    cases a with
    | none => exact fun _ => hv rfl
    | some t => simp [Request.isAbsent]
  | digits => exact (tracks_nonemptySpan_absent Char.isDigit).reply fun _ => rfl
  | line => exact tracks_line.reply fun _ => rfl
  | word => exact (tracks_nonemptySpan_absent (! isBlank ·)).reply fun _ => rfl
  | unsigned => exact tracks_unsigned.reply fun _ => rfl
  | signed => exact tracks_signed.reply fun _ => rfl
  | boolean => exact tracks_boolean.reply fun _ => rfl
  | truth b => exact (tracks_truth b).reply fun _ => rfl
  | exactly t =>
    -- the reply is never missing: a text is absent when the answer is no
    apply (tracks_exactly t).bind
    rintro found _ rfl
    apply Tracks.pure
    cases found <;> simp [Request.isAbsent]
  | dropBlanks => exact tracks_dropBlanks.bind fun _ _ _ => .pure (by simp [Request.isAbsent])
  | remainder =>
    exact (tracks_span fun _ => true).bind fun _ _ _ => .pure (by simp [Request.isAbsent])

/-- Every request that only reads is tracked by a loose simulation. -/
theorem Loose.tracks_perform (hS : S.Loose) (r : Request) (hr : r.isReading = true) :
    S.Tracks [] (fun _ _ => True) (r.perform : Scan σ Reply) (r.perform : Scan τ Reply) := by
  by_cases hb : r = .dropBlankLines
  · subst hb
    exact hS.tracks_dropBlankLines.bind fun _ _ _ => .pure trivial
  · exact (Simulation.tracks_perform r hr hb).mono fun _ _ _ => trivial

/-- Every request is tracked by a free simulation. -/
theorem Free.tracks_perform (hS : S.Free) (r : Request) :
    S.Tracks [] (fun _ _ => True) (r.perform : Scan σ Reply) (r.perform : Scan τ Reply) := by
  cases r with
  | handBack c =>
    cases c with
    | none => exact .pure trivial
    | some c => exact (hS.tracks_putBack [c]).bind fun _ _ _ => .pure trivial
  | putBack t => exact (hS.tracks_putBack t).bind fun _ _ _ => .pure trivial
  | _ => exact hS.loose.tracks_perform _ rfl

end Simulation

end Rescan
