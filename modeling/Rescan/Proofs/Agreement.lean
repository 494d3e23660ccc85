import Mathlib.Data.List.Forall2
import Rescan.Scan

/-!
# Agreement of outcomes

Two actions on different states are compared by how they end. Their outcomes *agree* when both end
in the same value, or both in the same fault, and the states they leave behind are related. Some
faults may be excused: where the first action ends in one of them, the second may end as it likes.

## Main statements

* `Agree.bind`: sequences agree when their parts do.
* `forall₂_trace`: what every step keeps, every step of a run keeps.
-/

namespace Rescan

variable {σ τ α β : Type}

namespace Outcome

/-! ## Agreement -/

/-- The same value in states related by `related`, or the same fault in states related by `failed`.
Nothing is asked after a fault that `excused` allows. -/
inductive Agree (excused : Fault → Prop) (failed : σ → τ → Prop) (related : α → σ → τ → Prop) :
    Outcome σ α → Outcome τ α → Prop where
  /-- Both end in the same value. -/
  | ok {a : α} {s : σ} {t : τ} :
      related a s t → Agree excused failed related (.ok a s) (.ok a t)
  /-- Both end in the same fault. -/
  | error {e : Fault} {s : σ} {t : τ} :
      failed s t → Agree excused failed related (.error e s) (.error e t)
  /-- The first ends in an excused fault. -/
  | excused {e : Fault} {s : σ} {o : Outcome τ α} :
      excused e → Agree excused failed related (.error e s) o

namespace Agree

variable {excused : Fault → Prop} {failed : σ → τ → Prop} {related : α → σ → τ → Prop}
  {related' : β → σ → τ → Prop} {o : Outcome σ α} {o' : Outcome τ α}

/-- A weaker relation on the states after a value. -/
theorem mono {weaker : α → σ → τ → Prop} (h : Agree excused failed related o o')
    (hw : ∀ a s t, related a s t → weaker a s t) : Agree excused failed weaker o o' := by
  cases h with
  | ok h => exact .ok (hw _ _ _ h)
  | error h => exact .error h
  | excused h => exact .excused h

/-- Sequences agree when their first parts do, and their second parts do from wherever the first
ones can end. -/
theorem bind {f : α → σ → Outcome σ β} {g : α → τ → Outcome τ β}
    (h : Agree excused failed related o o')
    (hfg : ∀ a s t, o = .ok a s → related a s t → Agree excused failed related' (f a s) (g a t)) :
    Agree excused failed related' (o.bind f) (o'.bind g) := by
  cases h with
  | ok h => exact hfg _ _ _ rfl h
  | error h => exact .error h
  | excused h => exact .excused h

/-- The same function is applied to both values. -/
theorem map {f : α → β} (h : Agree excused failed related o o')
    (hf : ∀ a s t, related a s t → related' (f a) s t) :
    Agree excused failed related' (o.map f) (o'.map f) := by
  cases h with
  | ok h => exact .ok (hf _ _ _ h)
  | error h => exact .error h
  | excused h => exact .excused h

/-- Where the first does not end in an excused fault, nothing is excused. -/
theorem strict (h : Agree excused failed related o o')
    (ho : ∀ e s, o = .error e s → ¬ excused e) : Agree (fun _ => False) failed related o o' := by
  cases h with
  | ok h => exact .ok h
  | error h => exact .error h
  | excused h => exact absurd h (ho _ _ rfl)

/-- Where no fault is excused, the results are the same. -/
theorem result_eq (h : Agree (fun _ => False) failed related o o') : o.result = o'.result := by
  cases h with
  | ok => rfl
  | error => rfl
  | excused h => exact h.elim

/-- Where no fault is excused and both relations imply a third, the states are related by it. -/
theorem state (h : Agree (fun _ => False) failed related o o') (keeps : σ → τ → Prop)
    (hr : ∀ a s t, related a s t → keeps s t) (hf : ∀ s t, failed s t → keeps s t) :
    keeps o.state o'.state := by
  cases h with
  | ok h => exact hr _ _ _ h
  | error h => exact hf _ _ h
  | excused h => exact h.elim

/-- Where the states of the second are a view of those of the first, so are the outcomes. -/
theorem eq_mapState {f : σ → τ} (h : Agree (fun _ => False) failed related o o')
    (hr : ∀ a s t, related a s t → t = f s) (hf : ∀ s t, failed s t → t = f s) :
    o' = o.mapState f := by
  cases h with
  | ok h => exact congrArg _ (hr _ _ _ h)
  | error h => exact congrArg _ (hf _ _ h)
  | excused h => exact h.elim

/-- Where the states of the first are a view of those of the second, so are the outcomes. -/
theorem mapState_eq {f : τ → σ} (h : Agree (fun _ => False) failed related o o')
    (hr : ∀ a s t, related a s t → f t = s) (hf : ∀ s t, failed s t → f t = s) :
    o'.mapState f = o := by
  cases h with
  | ok h => exact congrArg _ (hr _ _ _ h)
  | error h => exact congrArg _ (hf _ _ h)
  | excused h => exact h.elim

/-- An outcome agrees with itself when the states of the other side are a view of its own. -/
theorem mapState {f : σ → τ} (o : Outcome σ α) (hr : ∀ a s, o = .ok a s → related a s (f s))
    (hf : ∀ e s, o = .error e s → failed s (f s)) :
    Agree excused failed related o (o.mapState f) := by
  cases o with
  | ok a s => exact .ok (hr a s rfl)
  | error e s => exact .error (hf e s rfl)

/-- An outcome agrees with itself. -/
theorem self {failed : σ → σ → Prop} {related : α → σ → σ → Prop} (o : Outcome σ α)
    (hr : ∀ a s, o = .ok a s → related a s s) (hf : ∀ e s, o = .error e s → failed s s) :
    Agree excused failed related o o := by
  cases o with
  | ok a s => exact .ok (hr a s rfl)
  | error e s => exact .error (hf e s rfl)

/-- What is known of the states of the first is known beside the relations. -/
theorem left {p : α → σ → Prop} {q : σ → Prop} (h : Agree excused failed related o o')
    (hp : ∀ a s, o = .ok a s → p a s) (hq : ∀ e s, o = .error e s → q s) :
    Agree excused (fun s t => failed s t ∧ q s) (fun a s t => related a s t ∧ p a s) o o' := by
  cases h with
  | ok h => exact .ok ⟨h, hp _ _ rfl⟩
  | error h => exact .error ⟨h, hq _ _ rfl⟩
  | excused h => exact .excused h

/-- What is known after the value of the first. -/
theorem exists_of_ok (h : Agree excused failed related o o') {a : α} {s : σ} (ho : o = .ok a s) :
    ∃ t, o' = .ok a t ∧ related a s t := by
  subst ho
  cases h with
  | ok h => exact ⟨_, rfl, h⟩

/-- What is known after a fault of the first that is not excused. -/
theorem exists_of_error (h : Agree excused failed related o o') {e : Fault} {s : σ}
    (ho : o = .error e s) (he : ¬ excused e) : ∃ t, o' = .error e t ∧ failed s t := by
  subst ho
  cases h with
  | error h => exact ⟨_, rfl, h⟩
  | excused h => exact absurd h he

/-- What is known after the value of the second. -/
theorem exists_of_ok_right (h : Agree (fun _ => False) failed related o o') {a : α} {t : τ}
    (ho : o' = .ok a t) : ∃ s, o = .ok a s ∧ related a s t := by
  subst ho
  cases h with
  | ok h => exact ⟨_, rfl, h⟩
  | excused h => exact h.elim

/-- What is known after a fault of the second. -/
theorem exists_of_error_right (h : Agree (fun _ => False) failed related o o') {e : Fault} {t : τ}
    (ho : o' = .error e t) : ∃ s, o = .error e s ∧ failed s t := by
  subst ho
  cases h with
  | error h => exact ⟨_, rfl, h⟩
  | excused h => exact h.elim

end Agree

end Outcome

/-! ## Runs -/

namespace Scan

/-- The run lemma: if `inv` relates the states before a step and then again those after it, and the
outcomes of a step are related by `step`, then those of a whole run are, one by one. The invariant
may look at the actions that are still to come. -/
theorem forall₂_trace {act : α → Scan σ β} {act' : α → Scan τ β}
    {step : Outcome σ β → Outcome τ β → Prop} (inv : List α → σ → τ → Prop)
    (h : ∀ a rest s t, inv (a :: rest) s t → step ((act a).run s) ((act' a).run t) ∧
      inv rest ((act a).run s).state ((act' a).run t).state)
    (as : List α) (s : σ) (t : τ) (hinv : inv as s t) :
    List.Forall₂ step (trace act as s) (trace act' as t) := by
  induction as generalizing s t with
  | nil => exact .nil
  | cons a rest ih =>
    obtain ⟨hstep, hrest⟩ := h a rest s t hinv
    exact .cons hstep (ih _ _ hrest)

end Scan

end Rescan
