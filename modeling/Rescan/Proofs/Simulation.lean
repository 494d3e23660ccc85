import Rescan.Proofs.Agreement
import Rescan.Stream.Basic

/-!
# Simulations between streams

Two streams are compared while the same actions are performed on both. The relation between their
states is indexed by a *window*: the characters that were read since some point and have not been
handed back. Reading extends the window at its end, and what is handed back has to be the end of the
window. A recognizer keeps to that, so it needs to be compared with itself only once, for every
simulation, and its window tells what it has consumed.

## Main definitions

* `Simulation`: a relation that reading and handing back the end of the window respect.
* `Simulation.Tracks`: the same action on both streams, from one window to another.
* `Simulation.Loose`, `Simulation.Free`: relations for which less of the window matters.
-/

namespace Rescan

open CharStream

variable {σ τ α β : Type}

/-- A relation between the states of two streams, for every window, such that reading and handing
back go the same way on both. -/
structure Simulation (σ τ : Type) [CharStream σ] [CharStream τ] where
  /-- The states are related, and the window was read just before. -/
  rel : Text → σ → τ → Prop
  /-- The states are related, and the last read found an end. -/
  ended : σ → τ → Prop
  /-- The states are related after a fault. -/
  failed : σ → τ → Prop
  /-- Faults of the first stream after which nothing is compared. -/
  excused : Fault → Prop
  /-- A character that is read extends the window. -/
  next : ∀ {w s t}, rel w s t → Outcome.Agree excused failed
    (fun c s' t' => rel (w ++ c.toList) s' t' ∧ (c = none → ended s' t'))
    (Source.next.run s) (Source.next.run t)
  /-- The end of the window can be handed back. -/
  putBack : ∀ {w u s t}, rel (w ++ u) s t → Outcome.Agree excused failed
    (fun _ s' t' => rel w s' t') ((CharStream.putBack u).run s) ((CharStream.putBack u).run t)
  /-- A recognizer may end in a fault of its own. -/
  fail : ∀ {w s t}, rel w s t → failed s t

namespace Simulation

variable [CharStream σ] [CharStream τ] (S : Simulation σ τ)

/-! ## Tracking -/

/-- Performed on both streams, the actions agree, and lead from the window `v` to one that `spent`
allows for their value. -/
def Tracks (v : Text) (spent : α → Text → Prop) (x : Scan σ α) (y : Scan τ α) : Prop :=
  ∀ ⦃w s t⦄, S.rel (w ++ v) s t → Outcome.Agree S.excused S.failed
    (fun a s' t' => ∃ v', spent a v' ∧ S.rel (w ++ v') s' t') (x.run s) (y.run t)

variable {S} {v : Text} {spent : α → Text → Prop}

namespace Tracks

theorem pure {a : α} (h : spent a v) :
    S.Tracks v spent (Pure.pure a : Scan σ α) (Pure.pure a : Scan τ α) :=
  fun _ _ _ hr => .ok ⟨v, h, hr⟩

theorem fail (e : Fault) : S.Tracks v spent (Scan.fail e : Scan σ α) (Scan.fail e : Scan τ α) :=
  fun _ _ _ hr => .error (S.fail hr)

/-- The second action starts with the window that the first one left. -/
theorem bind {x : Scan σ α} {y : Scan τ α} {f : α → Scan σ β} {g : α → Scan τ β}
    {spent' : β → Text → Prop} (h : S.Tracks v spent x y)
    (hfg : ∀ a v', spent a v' → S.Tracks v' spent' (f a) (g a)) :
    S.Tracks v spent' (x >>= f) (y >>= g) := by
  intro w s t hr
  rw [Scan.run_bind, Scan.run_bind]
  apply (h hr).bind
  rintro a s' t' - ⟨v', ha, hr'⟩
  exact hfg a v' ha hr'

theorem mono {spent' : α → Text → Prop} {x : Scan σ α} {y : Scan τ α} (h : S.Tracks v spent x y)
    (hs : ∀ a v', spent a v' → spent' a v') : S.Tracks v spent' x y := by
  intro w s t hr
  apply (h hr).mono
  rintro a s' t' ⟨v', ha, hr'⟩
  exact ⟨v', hs a v' ha, hr'⟩

/-- The frame rule: what was read before an action stays in front of its window. -/
theorem after {x : Scan σ α} {y : Scan τ α} (u : Text) (h : S.Tracks v spent x y) :
    S.Tracks (u ++ v) (fun a v' => ∃ v₀, v' = u ++ v₀ ∧ spent a v₀) x y := by
  intro w s t hr
  rw [← List.append_assoc] at hr
  apply (h hr).mono
  rintro a s' t' ⟨v₀, ha, hr'⟩
  rw [List.append_assoc] at hr'
  exact ⟨u ++ v₀, ⟨v₀, rfl, ha⟩, hr'⟩

/-- Tracking from an empty window. -/
theorem agree {x : Scan σ α} {y : Scan τ α} {s : σ} {t : τ} (h : S.Tracks [] spent x y)
    (hr : S.rel [] s t) : Outcome.Agree S.excused S.failed
      (fun a s' t' => ∃ v, spent a v ∧ S.rel v s' t') (x.run s) (y.run t) :=
  h (w := []) hr

/-! ## Reading and handing back -/

theorem next : S.Tracks v (fun c v' => v' = v ++ c.toList)
    (Source.next : Scan σ (Option Char)) (Source.next : Scan τ (Option Char)) := by
  intro w s t hr
  apply (S.next hr).mono
  rintro c s' t' ⟨hr', -⟩
  exact ⟨v ++ c.toList, rfl, by rwa [← List.append_assoc]⟩

theorem putBack (u : Text) : S.Tracks (v ++ u) (fun _ v' => v' = v)
    (CharStream.putBack u : Scan σ Unit) (CharStream.putBack u : Scan τ Unit) := by
  intro w s t hr
  rw [← List.append_assoc] at hr
  exact (S.putBack hr).mono fun _ s' t' hr' => ⟨v, rfl, hr'⟩

theorem handBack (c : Option Char) : S.Tracks (v ++ c.toList) (fun _ v' => v' = v)
    (CharStream.handBack c : Scan σ Unit) (CharStream.handBack c : Scan τ Unit) := by
  cases c with
  | none => exact pure (List.append_nil v)
  | some c => exact putBack [c]

/-- Looking ahead leaves the window as it was. -/
theorem peek : S.Tracks v (fun _ v' => v' = v)
    (CharStream.peek : Scan σ (Option Char)) (CharStream.peek : Scan τ (Option Char)) := by
  apply next.bind
  rintro c _ rfl
  apply (handBack c).bind
  rintro _ _ rfl
  exact pure rfl

end Tracks

/-! ## Relations for which less of the window matters -/

/-- A simulation is *loose* when only the length of the window matters, and nothing of it after an
end of input. -/
structure Loose (S : Simulation σ τ) : Prop where
  /-- A window may be exchanged for one that is not longer. -/
  exchange : ∀ {w w' s t}, w'.length ≤ w.length → S.rel w s t → S.rel w' s t
  /-- After an end every window will do. -/
  ended : ∀ {w w' s t}, S.ended s t → S.rel w s t → S.rel w' s t

/-- A simulation is *free* when the window does not matter. -/
def Free (S : Simulation σ τ) : Prop :=
  ∀ {w w' s t}, S.rel w s t → S.rel w' s t

theorem Free.loose (h : S.Free) : S.Loose where
  exchange _ := h
  ended _ := h

/-- With a free simulation any text can be handed back. -/
theorem Free.tracks_putBack (h : S.Free) (u : Text) : S.Tracks v (fun _ v' => v' = v)
    (CharStream.putBack u : Scan σ Unit) (CharStream.putBack u : Scan τ Unit) := by
  intro w s t hr
  exact (S.putBack (h hr)).mono fun _ s' t' hr' => ⟨v, rfl, hr'⟩

end Simulation

end Rescan
