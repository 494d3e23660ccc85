import Rescan.Stream.Basic

/-!
# Fixed texts and truth values

A fixed text is recognized character by character. If it turns out not to be there, everything that
was read for it is handed back at once.
-/

namespace Rescan

open CharStream

variable {σ : Type} [CharStream σ]

/-- Reads as long as the characters agree with a text. The answer is what was read, through the
first character that disagrees. -/
def follow : Text → Scan σ Text
  | [] => pure []
  | expected :: rest => do
    match ← Source.next with
    | none => return []
    | some c => if c = expected then return c :: (← follow rest) else return [c]

/-- Whether the text comes next. It is consumed if it does, and nothing is consumed otherwise. -/
def exactly (t : Text) : Scan σ Bool := do
  let seen ← follow t
  if seen = t then
    return true
  else
    putBack seen
    return false

/-- The name of a truth value. -/
def truthName : Bool → Text
  | true => ['t', 'r', 'u', 'e']
  | false => ['f', 'a', 'l', 's', 'e']

/-- The truth value `b`, if its name comes next. -/
def truth (b : Bool) : Scan σ (Option Bool) := do
  return if ← exactly (truthName b) then some b else none

/-- Either truth value; the first character of the name tells which one to try. -/
def boolean : Scan σ (Option Bool) := do
  match ← peek with
  | some 't' => truth true
  | some 'f' => truth false
  | _ => return none

/-! ## Progress -/

/-- What was read for a text is no longer to be read. -/
theorem left_follow {t seen : Text} {s s' : σ} (h : (follow t).run s = .ok seen s') :
    Source.left s' + seen.length ≤ Source.left s := by
  induction t generalizing s seen with
  | nil =>
    cases h
    exact Nat.le_refl _
  | cons expected rest ih =>
    obtain ⟨c, s₁, h₁, h⟩ := Scan.run_bind_eq_ok_iff.1 h
    cases c with
    | none =>
      cases h
      exact Source.left_none h₁
    | some c =>
      have hlt := Source.left_some h₁
      by_cases hc : c = expected
      · -- the character agrees
        simp only [hc, if_true] at h
        obtain ⟨u, s₂, h₂, h⟩ := Scan.run_bind_eq_ok_iff.1 h
        cases h
        have := ih h₂
        simp only [List.length_cons]
        omega
      · -- the character disagrees and is the last one read
        simp only [hc, if_false] at h
        cases h
        simp only [List.length_cons, List.length_nil]
        omega

theorem steady_exactly (t : Text) : Scan.Steady (exactly t : Scan σ Bool) := by
  intro s s' b h
  obtain ⟨seen, s₁, h₁, h⟩ := Scan.run_bind_eq_ok_iff.1 h
  have hseen := left_follow h₁
  by_cases ht : seen = t
  · simp only [ht, if_true] at h
    cases h
    omega
  · simp only [ht, if_false] at h
    obtain ⟨_, s₂, h₂, h⟩ := Scan.run_bind_eq_ok_iff.1 h
    cases h
    have := left_putBack h₂
    omega

theorem steady_truth (b : Bool) : Scan.Steady (truth b : Scan σ (Option Bool)) :=
  .bind (steady_exactly _) fun _ => .pure _

theorem steady_boolean : Scan.Steady (boolean : Scan σ (Option Bool)) := by
  refine .bind steady_peek fun c => ?_
  split
  · exact steady_truth true
  · exact steady_truth false
  · exact .pure _

end Rescan
