import Rescan.Proofs.Lifting

/-!
# Supplies without an end

A source comes with a bound on what it can still hand out, so a supply of characters that never ends is
no source. But whatever comes to an end has asked for no more than some number of answers. Cut off behind
so many, every supply is a source, and as long as a session does not run into the cut it makes no
difference where the cut is. So what holds of all sources holds of all that a supply is ever asked for.

## Main definitions

* `Cut`: a supply of characters that fails after a number of answers.
* `SourceSimulation.extending`: the same supply, cut off further behind.

## Main statements

* `Cut.trace_extend`: a session that does not run into the cut is the same however far behind it is.
-/

namespace Rescan

variable {σ : Type} {ask : Scan σ (Option Char)} {cut : Fault}

/-! ## Cutting off -/

/-- A supply that can be asked for characters, and how many answers it will still give. Whether it would
ever come to an end does not matter. After the last answer it fails with the fault `cut`. -/
structure Cut (ask : Scan σ (Option Char)) (cut : Fault) where
  /-- The state of the supply. -/
  supply : σ
  /-- The number of answers before the cut. -/
  budget : Nat
deriving DecidableEq, Repr

namespace Cut

/-- Asks the supply while the budget lasts. -/
def next (s : Cut ask cut) : Outcome (Cut ask cut) (Option Char) :=
  match s.budget with
  | 0 => .error cut s
  | budget + 1 => (ask.run s.supply).mapState fun supply => { supply, budget }

/-- Every answer is one less before the cut. -/
theorem budget_next {s s' : Cut ask cut} {c : Option Char} (h : next s = .ok c s') :
    s'.budget < s.budget := by
  obtain ⟨supply, budget⟩ := s
  cases budget with
  | zero => cases h
  | succ budget =>
    obtain ⟨supply', -, rfl⟩ := Outcome.mapState_eq_ok_iff.1 h
    exact Nat.lt_succ_self budget

instance : Source (Cut ask cut) where
  next := ⟨next⟩
  left := budget
  left_some h := budget_next h
  left_none h := Nat.le_of_lt (budget_next h)

/-- The same supply, cut off `d` answers further behind. -/
def extend (d : Nat) (s : Cut ask cut) : Cut ask cut :=
  { s with budget := s.budget + d }

end Cut

/-- A buffered supply, cut off `d` answers further behind. -/
def Buffered.extend (d : Nat) (b : Buffered (Cut ask cut)) : Buffered (Cut ask cut) :=
  { b with source := b.source.extend d }

/-! ## Sessions on supplies that are cut off -/

/-- Two cuts of one supply, of which the second is further behind. Nothing is compared after the
first. -/
def SourceSimulation.extending (d : Nat) : SourceSimulation (Cut ask cut) (Cut ask cut) where
  rel s t := t = s.extend d
  excused e := e = cut
  next := by
    rintro s _ rfl
    obtain ⟨supply, budget⟩ := s
    show Outcome.Agree _ _ _ (Cut.next ⟨supply, budget⟩) (Cut.next ⟨supply, budget + d⟩)
    cases budget with
    | zero => exact .excused rfl
    | succ budget =>
      -- both have an answer left, and it is that of the supply
      rw [Nat.succ_add_eq_add_succ budget d]
      unfold Cut.next
      dsimp only
      cases ask.run supply with
      | ok c supply => exact .ok rfl
      | error e supply => exact .error rfl

namespace Cut

/-- A step that does not run into the cut ends alike further behind. -/
theorem perform_extend (d : Nat) (step : Step) {b : Buffered (Cut ask cut)}
    (h : (step.perform.run b).result ≠ .error cut) :
    step.perform.run (b.extend d) = (step.perform.run b).mapState (Buffered.extend d) := by
  have halike : b.Alike (SourceSimulation.extending d).rel (b.extend d) := ⟨rfl, rfl, rfl, rfl⟩
  have hagree := (SourceSimulation.extending d).agree_step step halike
  have hextend (b c : Buffered (Cut ask cut)) (h : b.Alike (SourceSimulation.extending d).rel c) :
      c = b.extend d := by
    obtain ⟨source, pending, capacity, offset⟩ := c
    obtain ⟨hsource, rfl, rfl, rfl⟩ := h
    dsimp only at hsource
    subst hsource
    rfl
  have hstrict : ∀ e s, step.perform.run b = .error e s → e ≠ cut := by
    intro e s hrun he
    rw [hrun, he] at h
    exact h rfl
  exact (hagree.strict hstrict).eq_mapState (fun _ => hextend) hextend

/-- A session that does not run into the cut is the same however far behind it is, but for the answers
that are left. The induction is over the steps. -/
theorem trace_extend (d : Nat) (steps : List Step) {b : Buffered (Cut ask cut)}
    (h : ∀ o ∈ Scan.trace Step.perform steps b, o.result ≠ .error cut) :
    Scan.trace Step.perform steps (b.extend d) =
      (Scan.trace Step.perform steps b).map (Outcome.mapState (Buffered.extend d)) := by
  induction steps generalizing b with
  | nil => rfl
  | cons step rest ih =>
    obtain ⟨hstep, hrest⟩ := List.forall_mem_cons.1 h
    have hperform := perform_extend d step hstep
    rw [Scan.trace, Scan.trace, List.map_cons, hperform, Outcome.state_mapState, ih hrest]

/-- A word of a supply that never ends is read before the cut, and its remainder runs into it. -/
example :
    let ask : Scan Nat (Option Char) := ⟨fun n => .ok (some (if n % 3 = 2 then ' ' else 'a')) (n + 1)⟩
    let b : Buffered (Cut ask (.reader "cut")) := Buffered.start ⟨0, 5⟩
    (Scan.trace Step.perform [.ask .word, .ask .remainder] b).map Outcome.result =
      [.ok (.text (some ['a', 'a'])), .error (.reader "cut")] := by
  decide +kernel

end Cut

end Rescan
