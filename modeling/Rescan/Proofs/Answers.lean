import Rescan.Proofs.Lifting

/-!
# What a source has answered

How often a source was asked cannot be told from its state: an end that is found twice may leave the
same source behind as one that is found once. So a source is given a list of its answers, one for
each time it was asked. Nothing that is done with the source depends on the list, and every run on a
source has its counterpart on the source with the list.

What was pending, followed by the characters among the answers, is what a request has consumed,
followed by what is pending afterwards.

## Main definitions

* `Asked`: a source and the answers it has given.
* `Buffered.asking`: a buffered source whose source keeps its answers.
* `handed`: the characters among some answers.

## Main statements

* `perform_asking`: a request does the same when the source keeps its answers.
* `perform_accounts`: what a request that only reads has consumed, and what the counter says of it.
-/

namespace Rescan

open Buffered

variable {σ : Type}

/-! ## Sources that keep their answers -/

/-- What a source can answer: a character, an end of input, or a fault. -/
abbrev Answer := Except Fault (Option Char)

/-- The characters among some answers. -/
def handed (answers : List Answer) : Text :=
  answers.flatMap fun answer => match answer with
    | .ok c => c.toList
    | .error _ => []

@[simp] theorem handed_nil : handed [] = [] := rfl

@[simp] theorem handed_append (answers answers' : List Answer) :
    handed (answers ++ answers') = handed answers ++ handed answers' :=
  List.flatMap_append

@[simp] theorem handed_singleton (c : Option Char) : handed [.ok c] = c.toList :=
  List.append_nil _

/-- A source and the answers it has given so far, in order. -/
structure Asked (σ : Type) where
  source : σ
  answers : List Answer := []
deriving DecidableEq

namespace Asked

variable [Source σ]

/-- The next character, with the answer put on the list. -/
def next (a : Asked σ) : Outcome (Asked σ) (Option Char) :=
  let answer := Source.next.run a.source
  answer.mapState fun source => { source, answers := a.answers ++ [answer.result] }

theorem next_eq_ok {a a' : Asked σ} {c : Option Char} (h : next a = .ok c a') :
    Source.next.run a.source = .ok c a'.source ∧ a'.answers = a.answers ++ [.ok c] := by
  obtain ⟨source, hs, rfl⟩ := Outcome.mapState_eq_ok_iff.1 h
  refine ⟨hs, ?_⟩
  rw [hs]
  rfl

instance : Source (Asked σ) where
  next := ⟨next⟩
  left a := Source.left a.source
  left_some h := Source.left_some (next_eq_ok h).1
  left_none h := Source.left_none (next_eq_ok h).1

end Asked

/-- The same buffered source, but its source keeps the answers it gives, and has given some
before. -/
def Buffered.asking (b : Buffered σ) (answers : List Answer := []) : Buffered (Asked σ) where
  source := { source := b.source, answers }
  pending := b.pending
  capacity := b.capacity
  offset := b.offset

variable [Source σ]

/-- A source beside the same source with its answers. -/
def SourceSimulation.answering : SourceSimulation σ (Asked σ) where
  rel s a := a.source = s
  excused _ := False
  next := by
    rintro s a rfl
    exact Outcome.Agree.mapState _ (fun _ _ _ => rfl) fun _ _ _ => rfl

/-- A request does the same when the source keeps its answers. -/
theorem perform_asking {b b' : Buffered σ} {r : Request} {reply : Reply}
    (h : r.perform.run b = .ok reply b') (answers : List Answer) :
    ∃ answers', r.perform.run (b.asking answers) = .ok reply (b'.asking answers') := by
  have hagree := (Simulation.Free.tracks_perform SourceSimulation.answering.buffered_free r).agree
    (s := b) (t := b.asking answers) ⟨rfl, rfl, rfl, rfl⟩
  obtain ⟨⟨⟨source, answers'⟩, pending, capacity, offset⟩, hrun, _, -, halike⟩ :=
    hagree.exists_of_ok h
  obtain ⟨rfl, rfl, rfl, rfl⟩ := halike
  exact ⟨answers', hrun⟩

/-! ## What was consumed -/

/-- From `b` on, the text `v` was consumed: what was pending and what the source has handed out
since is `v`, followed by what is pending in `b'`. -/
structure Buffered.Consumes (v : Text) (b b' : Buffered (Asked σ)) : Prop where
  text : ∃ answers, b'.source.answers = b.source.answers ++ answers ∧
    b.pending ++ handed answers = v ++ b'.pending
  offset : b'.offset = b.offset + v.length

namespace Buffered.Consumes

variable {v w u : Text} {b b₁ b' : Buffered (Asked σ)}

omit [Source σ] in
theorem refl (b : Buffered (Asked σ)) : Consumes [] b b :=
  ⟨⟨[], by simp, by simp⟩, rfl⟩

omit [Source σ] in
/-- Between two states only one text can have been consumed. -/
theorem unique (h : Consumes v b b') (h' : Consumes w b b') : v = w := by
  obtain ⟨answers, ha, hv⟩ := h.text
  obtain ⟨answers', ha', hw⟩ := h'.text
  rw [ha', List.append_cancel_left_eq] at ha
  subst ha
  exact List.append_cancel_right (hv.symm.trans hw)

/-- A character that is read is consumed. -/
theorem next {c : Option Char} (h : Consumes v b b₁) (hn : Buffered.next b₁ = .ok c b') :
    Consumes (v ++ c.toList) b b' := by
  obtain ⟨⟨answers, ha, hv⟩, ho⟩ := h
  cases c with
  | some c =>
    rcases next_eq_some hn with ⟨t, hp, rfl⟩ | ⟨hp, source, hs, rfl⟩
    · -- it was pending, and the source is not asked
      rw [hp] at hv
      exact ⟨⟨answers, ha, by simpa using hv⟩, by simp [ho, Nat.add_assoc]⟩
    · obtain ⟨-, ha'⟩ := Asked.next_eq_ok hs
      refine ⟨⟨answers ++ [.ok (some c)], ?_, ?_⟩, by simp [ho, Nat.add_assoc]⟩
      · rw [ha', ha, List.append_assoc]
      · rw [handed_append, ← List.append_assoc, hv, hp]
        simp
  | none =>
    -- an end is an answer that hands nothing out
    obtain ⟨hp, source, hs, rfl⟩ := next_eq_none hn
    obtain ⟨-, ha'⟩ := Asked.next_eq_ok hs
    refine ⟨⟨answers ++ [.ok none], ?_, ?_⟩, by simpa using ho⟩
    · rw [ha', ha, List.append_assoc]
    · rw [handed_append, ← List.append_assoc, hv]
      simp

omit [Source σ] in
/-- What is handed back is no longer consumed. -/
theorem putBack (h : Consumes (v ++ u) b b₁) (hp : Buffered.putBack u b₁ = .ok () b') :
    Consumes v b b' := by
  obtain ⟨⟨answers, ha, hv⟩, ho⟩ := h
  obtain ⟨-, rfl⟩ := putBack_eq_ok_iff.1 hp
  refine ⟨⟨answers, ha, by rw [hv, List.append_assoc]⟩, ?_⟩
  rw [List.length_append] at ho
  show b₁.offset - u.length = b.offset + v.length
  omega

end Buffered.Consumes

/-- One run of a buffered source beside itself, with an account of what it has consumed since
`b₀`. -/
def accounting (b₀ : Buffered (Asked σ)) : Simulation (Buffered (Asked σ)) (Buffered (Asked σ)) where
  rel w b b' := b = b' ∧ b₀.Consumes w b
  ended _ _ := True
  failed _ _ := True
  excused _ := False
  next := by
    rintro w b _ ⟨rfl, h⟩
    apply Outcome.Agree.self
    · exact fun c b' hn => ⟨⟨rfl, h.next hn⟩, fun _ => trivial⟩
    · exact fun _ _ _ => trivial
  putBack := by
    rintro w u b _ ⟨rfl, h⟩
    apply Outcome.Agree.self
    · exact fun _ b' hp => ⟨rfl, h.putBack hp⟩
    · exact fun _ _ _ => trivial
  fail _ := trivial

/-- A request that only reads has consumed some text, which the counter has counted. -/
theorem perform_accounts {b b' : Buffered (Asked σ)} {r : Request} {reply : Reply}
    (hr : r.isReading = true) (hb : r ≠ .dropBlankLines) (h : r.perform.run b = .ok reply b') :
    ∃ v, Consumes v b b' := by
  have hstart : (accounting b).rel [] b b := ⟨rfl, .refl b⟩
  obtain ⟨_, -, v, -, rfl, hv⟩ :=
    ((Simulation.tracks_perform r hr hb).agree hstart).exists_of_ok h
  exact ⟨v, hv⟩

end Rescan
