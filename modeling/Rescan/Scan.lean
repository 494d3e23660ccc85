import Rescan.Fault

/-!
# Scanning actions

An action reads and changes a state and ends in a value or a fault. The state after a fault is
kept, because it is visible: what was consumed before the fault stays consumed, and a later action
goes on from there.

## Main definitions

* `Scan`: actions on a state; `Outcome`: how an action ended.
* `Scan.trace`: a run of actions in which a fault does not stop the actions after it.
-/

namespace Rescan

/-- How an action ended: with a value or with a fault, and in which state. -/
inductive Outcome (σ α : Type) where
  | ok (value : α) (state : σ)
  | error (fault : Fault) (state : σ)
deriving DecidableEq, Repr

/-- An action on states `σ` that ends in a value of type `α` or in a fault. -/
structure Scan (σ α : Type) where
  /-- Performs the action from a state. -/
  run : σ → Outcome σ α

variable {σ τ α β : Type}

/-! ## Outcomes -/

namespace Outcome

/-- The state after the action. -/
def state : Outcome σ α → σ
  | ok _ s => s
  | error _ s => s

/-- The value or the fault, without the state. -/
def result : Outcome σ α → Except Fault α
  | ok a _ => .ok a
  | error e _ => .error e

/-- Applies a function to the value. -/
def map (f : α → β) : Outcome σ α → Outcome σ β
  | ok a s => ok (f a) s
  | error e s => error e s

/-- Applies a function to the state. -/
def mapState (f : σ → τ) : Outcome σ α → Outcome τ α
  | ok a s => ok a (f s)
  | error e s => error e (f s)

/-- Goes on after a value; a fault is final. -/
def bind (o : Outcome σ α) (f : α → σ → Outcome σ β) : Outcome σ β :=
  match o with
  | ok a s => f a s
  | error e s => error e s

@[simp] theorem state_ok (a : α) (s : σ) : (ok a s).state = s := rfl

@[simp] theorem state_error (e : Fault) (s : σ) : (error e s : Outcome σ α).state = s := rfl

@[simp] theorem map_ok (f : α → β) (a : α) (s : σ) : (ok a s).map f = ok (f a) s := rfl

@[simp] theorem map_error (f : α → β) (e : Fault) (s : σ) :
    (error e s : Outcome σ α).map f = error e s := rfl

@[simp] theorem bind_ok (f : α → σ → Outcome σ β) (a : α) (s : σ) : (ok a s).bind f = f a s := rfl

@[simp] theorem bind_error (f : α → σ → Outcome σ β) (e : Fault) (s : σ) :
    (error e s).bind f = error e s := rfl

@[simp] theorem state_mapState (f : σ → τ) (o : Outcome σ α) : (o.mapState f).state = f o.state := by
  cases o <;> rfl

theorem map_eq_ok_iff {f : α → β} {o : Outcome σ α} {b : β} {s : σ} :
    o.map f = ok b s ↔ ∃ a, o = ok a s ∧ f a = b := by
  cases o with
  | ok a t =>
    simp only [map_ok, ok.injEq]
    constructor
    · rintro ⟨rfl, rfl⟩
      exact ⟨a, ⟨rfl, rfl⟩, rfl⟩
    · rintro ⟨_, ⟨rfl, rfl⟩, rfl⟩
      exact ⟨rfl, rfl⟩
  | error e t => simp

/-- A sequence of two steps succeeds exactly when both do, the second from where the first
ended. -/
theorem bind_eq_ok_iff {o : Outcome σ α} {f : α → σ → Outcome σ β} {b : β} {s : σ} :
    o.bind f = ok b s ↔ ∃ a s', o = ok a s' ∧ f a s' = ok b s := by
  cases o with
  | ok a t =>
    simp only [bind_ok, ok.injEq]
    constructor
    · exact fun h => ⟨a, t, ⟨rfl, rfl⟩, h⟩
    · rintro ⟨_, _, ⟨rfl, rfl⟩, h⟩
      exact h
  | error e t => simp

theorem mapState_eq_ok_iff {f : σ → τ} {o : Outcome σ α} {a : α} {t : τ} :
    o.mapState f = ok a t ↔ ∃ s, o = ok a s ∧ f s = t := by
  cases o <;> simp [mapState, and_assoc]

theorem mapState_eq_error_iff {f : σ → τ} {o : Outcome σ α} {e : Fault} {t : τ} :
    o.mapState f = error e t ↔ ∃ s, o = error e s ∧ f s = t := by
  cases o <;> simp [mapState, and_assoc]

end Outcome

/-! ## Actions -/

namespace Scan

instance : Monad (Scan σ) where
  pure a := ⟨.ok a⟩
  bind x f := ⟨fun s => (x.run s).bind fun a => (f a).run⟩

/-- Ends in a fault and changes nothing. -/
def fail (e : Fault) : Scan σ α :=
  ⟨.error e⟩

/-- Answers the state and changes nothing. -/
def get : Scan σ σ :=
  ⟨fun s => .ok s s⟩

@[simp] theorem run_pure (a : α) (s : σ) : (pure a : Scan σ α).run s = .ok a s := rfl

@[simp] theorem run_bind (x : Scan σ α) (f : α → Scan σ β) (s : σ) :
    (x >>= f).run s = (x.run s).bind fun a => (f a).run := rfl

@[simp] theorem run_fail (e : Fault) (s : σ) : (fail e : Scan σ α).run s = .error e s := rfl

@[simp] theorem run_get (s : σ) : (get : Scan σ σ).run s = .ok s s := rfl

/-- A sequence of two actions succeeds exactly when both do. -/
theorem run_bind_eq_ok_iff {x : Scan σ α} {f : α → Scan σ β} {s s'' : σ} {b : β} :
    (x >>= f).run s = .ok b s'' ↔ ∃ a s', x.run s = .ok a s' ∧ (f a).run s' = .ok b s'' := by
  rw [run_bind, Outcome.bind_eq_ok_iff]

/-- An action whose value is only handed to a function succeeds exactly when it does so itself. -/
theorem run_bind_pure_eq_ok_iff {x : Scan σ α} {f : α → β} {s s' : σ} {b : β} :
    (x >>= fun a => pure (f a)).run s = .ok b s' ↔ ∃ a, x.run s = .ok a s' ∧ f a = b := by
  rw [run_bind_eq_ok_iff]
  constructor
  · intro h
    obtain ⟨a, s₁, hx, hf⟩ := h
    cases hf
    exact ⟨a, hx, rfl⟩
  · intro h
    obtain ⟨a, hx, rfl⟩ := h
    exact ⟨a, s', hx, rfl⟩

/-! ## Runs of actions -/

/-- Performs the actions in order, each from the state that the one before left behind, whether that
one ended in a value or in a fault. -/
def trace (act : α → Scan σ β) : List α → σ → List (Outcome σ β)
  | [], _ => []
  | a :: rest, s =>
    let outcome := (act a).run s
    outcome :: trace act rest outcome.state

/-- The state after a run of actions. -/
def finish (act : α → Scan σ β) : List α → σ → σ
  | [], s => s
  | a :: rest, s => finish act rest ((act a).run s).state

end Scan

end Rescan
