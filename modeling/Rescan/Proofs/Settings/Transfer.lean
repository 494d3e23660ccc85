import Rescan.Proofs.Requests
import Rescan.Proofs.Room
import Rescan.Settings.Reader

/-!
# Settings on other streams

The reader of settings is built from recognizers, so it does the same on two streams as soon as
there is a simulation between them. It also hands back little at once: five characters, for a name
of a truth value that turns out to be another word. So a buffer of the default capacity never
overflows, and a document can be read from the stack of its characters instead.

## Main definitions

* `Simulation.Relates`: the same action on both streams, whatever the window.
* `Reading.returned`: the settings of a document, or the fault that ended it.

## Main statements

* `Simulation.agree_items`: under every simulation the same items are read.
* `Scan.Fits.statement`: room for five characters is enough for a statement.
* `read_passage`: reading a passage is reading the stack of its characters.
-/

namespace Rescan

open CharStream

variable {σ τ α β : Type}

/-! ## One turn of the loops -/

namespace Settings

section Equations

variable [CharStream σ]

/-- One turn of leaving out blanks and comments. -/
theorem dropCommentsFrom_eq (n : Nat) (s : σ) :
    dropCommentsFrom n s = ((passOver isBlank).run s).bind fun blanks s₁ =>
      (peek.run s₁).bind fun c s₂ =>
        if c = some '#' then
          (line.run s₂).bind fun _ s₃ => dropCommentsFrom (n + blanks.count '\n' + 1) s₃
        else .ok (n + blanks.count '\n') s₂ := by
  rw [dropCommentsFrom]
  cases (passOver isBlank).run s with
  | error e s₁ => rfl
  | ok blanks s₁ =>
    simp only [Outcome.bind_ok]
    cases peek.run s₁ with
    | error e s₂ => rfl
    | ok c s₂ =>
      simp only [Outcome.bind_ok]
      split
      · cases line.run s₂ <;> rfl
      · rfl

/-- The items of a document by its first statement. -/
theorem items_eq (n : Nat) (s : σ) :
    items n s = match (statement n).run s with
      | .ok (m, some item) s' =>
        { items := item :: (items m s').items, ending := (items m s').ending }
      | .ok (m, none) s' => { items := [], ending := .ok m s' }
      | .error e s' => { items := [], ending := .error e s' } := by
  rw [items]
  cases (statement n).run s with
  | error e s' => rfl
  | ok a s' =>
    obtain ⟨m, item⟩ := a
    cases item <;> rfl

end Equations

/-- The settings, if the whole document could be read, and the fault that ended it otherwise. -/
def Reading.returned (r : Reading σ) : Except Fault (List Setting) :=
  r.ending.result.map fun _ => r.settings

end Settings

/-! ## Simulations -/

namespace Simulation

variable [CharStream σ] [CharStream τ] (S : Simulation σ τ)

/-- Performed on both streams, the actions agree and leave related states, whatever the windows. -/
def Relates (x : Scan σ α) (y : Scan τ α) : Prop :=
  ∀ ⦃w s t⦄, S.rel w s t →
    Outcome.Agree S.excused S.failed (fun _ s' t' => ∃ w', S.rel w' s' t') (x.run s) (y.run t)

variable {S}

theorem Tracks.relates {spent : α → Text → Prop} {x : Scan σ α} {y : Scan τ α}
    (h : S.Tracks [] spent x y) : S.Relates x y := by
  intro w s t hr
  rw [← List.append_nil w] at hr
  apply (h hr).mono
  intro a s' t' ⟨v, _, hr'⟩
  exact ⟨w ++ v, hr'⟩

namespace Relates

theorem pure (a : α) : S.Relates (Pure.pure a : Scan σ α) (Pure.pure a : Scan τ α) :=
  fun w _ _ hr => .ok ⟨w, hr⟩

theorem bind {x : Scan σ α} {y : Scan τ α} {f : α → Scan σ β} {g : α → Scan τ β}
    (h : S.Relates x y) (hfg : ∀ a, S.Relates (f a) (g a)) : S.Relates (x >>= f) (y >>= g) := by
  intro w s t hr
  rw [Scan.run_bind, Scan.run_bind]
  apply (h hr).bind
  intro a s' t' _ ⟨w', hr'⟩
  exact hfg a hr'

end Relates

open Settings

/-! ## The reader under a simulation -/

theorem relates_peek :
    S.Relates (peek : Scan σ (Option Char)) (peek : Scan τ (Option Char)) :=
  (Tracks.peek (v := [])).relates

theorem relates_passOver (p : Char → Bool) :
    S.Relates (passOver p : Scan σ Text) (passOver p : Scan τ Text) := by
  intro w s t h
  show Outcome.Agree _ _ _ (passOverFrom p s) (passOverFrom p t)
  induction hleft : Source.left s using Nat.strongRecOn generalizing w s t with
  | ind i ih =>
    subst hleft
    rw [passOverFrom_eq, passOverFrom_eq]
    apply (relates_peek h).bind
    intro c s₁ t₁ hs₁ ⟨w₁, h₁⟩
    cases c with
    | none => exact .ok ⟨w₁, h₁⟩
    | some c =>
      dsimp only
      split
      · apply (S.next h₁).bind
        intro d s₂ t₂ hs₂ ⟨h₂, _⟩
        exact (ih _ (left_next_peek hs₁ hs₂) h₂ rfl).map fun _ _ _ h' => h'
      · exact .ok ⟨w₁, h₁⟩

theorem agree_dropCommentsFrom {w : Text} {s : σ} {t : τ} (n : Nat) (h : S.rel w s t) :
    Outcome.Agree S.excused S.failed (fun _ s' t' => ∃ w', S.rel w' s' t')
      (dropCommentsFrom n s) (dropCommentsFrom n t) := by
  induction hleft : Source.left s using Nat.strongRecOn generalizing n w s t with
  | ind i ih =>
    subst hleft
    rw [dropCommentsFrom_eq, dropCommentsFrom_eq]
    apply (relates_passOver isBlank h).bind
    intro blanks s₁ t₁ hs₁ ⟨w₁, h₁⟩
    apply (relates_peek h₁).bind
    intro c s₂ t₂ hs₂ ⟨w₂, h₂⟩
    split
    · next hc =>
      -- a comment, behind which the induction goes on
      subst hc
      apply (tracks_line.relates h₂).bind
      intro l s₃ t₃ hs₃ ⟨w₃, h₃⟩
      exact ih _ (left_comment hs₁ hs₂ hs₃) _ h₃ rfl
    · exact .ok ⟨w₂, h₂⟩

theorem relates_scalar :
    S.Relates (scalar : Scan σ (Option Scalar)) (scalar : Scan τ (Option Scalar)) := by
  have hdelimited (d : Delimiters) :
      S.Relates (delimited d : Scan σ (Option Text)) (delimited d : Scan τ (Option Text)) :=
    (tracks_delimited d).relates
  unfold scalar
  apply relates_peek.bind
  intro c
  cases c with
  | none => exact .pure none
  | some c =>
    dsimp only
    split
    · exact (hdelimited _).bind fun _ => .pure _
    split
    · exact (hdelimited _).bind fun _ => .pure _
    split
    · exact tracks_boolean.relates.bind fun _ => .pure _
    split
    · exact tracks_signed.relates.bind fun _ => .pure _
    · exact .pure none

theorem relates_assignment (n : Nat) (key : Text) :
    S.Relates (assignment n key : Scan σ Item) (assignment n key : Scan τ Item) := by
  unfold assignment
  refine (relates_passOver _).bind fun _ => (tracks_exactly _).relates.bind fun present => ?_
  split
  · refine (relates_passOver _).bind fun _ => relates_scalar.bind fun value => ?_
    refine tracks_line.relates.bind fun rest => ?_
    cases value <;> exact .pure _
  · exact tracks_line.relates.bind fun _ => .pure _

theorem relates_statement (n : Nat) :
    S.Relates (statement n : Scan σ (Nat × Option Item))
      (statement n : Scan τ (Nat × Option Item)) := by
  have hcomments : S.Relates (dropComments n : Scan σ Nat) (dropComments n : Scan τ Nat) :=
    fun _ _ _ h => agree_dropCommentsFrom n h
  have hword : S.Relates (word : Scan σ (Option Text)) (word : Scan τ (Option Text)) :=
    (tracks_nonemptySpan _).relates
  unfold statement
  refine hcomments.bind fun m => hword.bind fun key => ?_
  cases key with
  | none => exact .pure _
  | some key => exact (relates_assignment m key).bind fun _ => .pure _

/-- The same items are read from both streams and reading them ends alike, unless it ends in a fault
that is excused. The induction goes from one statement to the next. -/
theorem agree_items {w : Text} {s : σ} {t : τ} (n : Nat) (h : S.rel w s t)
    (hstrict : ∀ e s', (items n s).ending = .error e s' → ¬ S.excused e) :
    (items n s).items = (items n t).items ∧
      Outcome.Agree (fun _ => False) S.failed (fun _ s' t' => ∃ w', S.rel w' s' t')
        (items n s).ending (items n t).ending := by
  induction hleft : Source.left s using Nat.strongRecOn generalizing n w s t with
  | ind i ih =>
    subst hleft
    have hagree := relates_statement n h
    rw [items_eq n s] at hstrict ⊢
    rw [items_eq n t]
    generalize hs : (statement n).run s = o at hagree hstrict ⊢
    generalize (statement n).run t = o' at hagree ⊢
    cases hagree with
    | excused he => exact absurd he (hstrict _ _ rfl)
    | error hf => exact ⟨rfl, .error hf⟩
    | @ok a s' t' hr =>
      obtain ⟨m, item⟩ := a
      obtain ⟨w', hr⟩ := hr
      cases item with
      | none => exact ⟨rfl, .ok ⟨w', hr⟩⟩
      | some item =>
        -- the rest of the document is read from states that are related again
        obtain ⟨hitems, hending⟩ := ih _ (left_statement hs) m hr hstrict rfl
        exact ⟨congrArg (item :: ·) hitems, hending⟩

end Simulation

/-! ## Room -/

namespace Scan.Fits

open Settings

variable [Source σ] [Unbuffered σ]

theorem passOver (p : Char → Bool) : Fits 1 (passOver p : Scan (Buffered σ) Text) := by
  intro m b hm h
  change (passOverFrom p b).Fits m
  induction hleft : Source.left b using Nat.strongRecOn generalizing b with
  | ind i ih =>
    subst hleft
    rw [passOverFrom_eq]
    refine (peek hm h).bind fun c b₁ hb₁ h₁ => ?_
    cases c with
    | none => exact .ok h₁
    | some c =>
      dsimp only
      split
      · refine (next hm h₁).bind fun d b₂ hb₂ h₂ => ?_
        exact (ih _ (left_next_peek hb₁ hb₂) h₂ rfl).map
      · exact .ok h₁

theorem dropComments (n : Nat) : Fits 1 (dropComments n : Scan (Buffered σ) Nat) := by
  intro m b hm h
  change (dropCommentsFrom n b).Fits m
  induction hleft : Source.left b using Nat.strongRecOn generalizing n b with
  | ind i ih =>
    subst hleft
    rw [dropCommentsFrom_eq]
    refine (passOver isBlank hm h).bind fun blanks b₁ hb₁ h₁ => ?_
    refine (peek hm h₁).bind fun c b₂ hb₂ h₂ => ?_
    split
    · next hc =>
      subst hc
      refine (line hm h₂).bind fun l b₃ hb₃ h₃ => ?_
      exact ih _ (left_comment hb₁ hb₂ hb₃) _ h₃ rfl
    · exact .ok h₂

theorem scalar : Fits 5 (scalar : Scan (Buffered σ) (Option Scalar)) := by
  refine (peek.mono (by decide)).bind fun c => ?_
  cases c with
  | none => exact pure _
  | some c =>
    dsimp only
    split
    · exact ((delimited _).mono (by decide)).bind fun _ => pure _
    split
    · exact ((delimited _).mono (by decide)).bind fun _ => pure _
    split
    · exact boolean.bind fun _ => pure _
    split
    · exact (signed.mono (by decide)).bind fun _ => pure _
    · exact pure _

theorem assignment (n : Nat) (key : Text) :
    Fits 5 (assignment n key : Scan (Buffered σ) Item) := by
  have hpass : Fits 5 (Settings.passOver isInline : Scan (Buffered σ) Text) :=
    (passOver _).mono (by decide)
  have hequals : Fits 5 (Rescan.exactly ['='] : Scan (Buffered σ) Bool) :=
    (exactly _).mono (by decide)
  refine hpass.bind fun _ => hequals.bind fun present => ?_
  split
  · refine hpass.bind fun _ => scalar.bind fun value => line.bind fun rest => ?_
    cases value <;> exact pure _
  · exact line.bind fun _ => pure _

theorem statement (n : Nat) : Fits 5 (statement n : Scan (Buffered σ) (Nat × Option Item)) := by
  refine ((dropComments n).mono (by decide)).bind fun m => ?_
  refine ((nonemptySpan _).mono (by decide)).bind fun key => ?_
  cases key with
  | none => exact pure _
  | some key => exact (assignment m key).bind fun _ => pure _

end Scan.Fits

namespace Settings

/-- The items of a document can be read in a buffer with room for five characters. -/
theorem fits_items [Source σ] [Unbuffered σ] {m : Nat} {b : Buffered σ} (n : Nat) (hm : 5 ≤ m)
    (h : b.Within m) : (items n b).ending.Fits m := by
  induction hleft : Source.left b using Nat.strongRecOn generalizing n b with
  | ind i ih =>
    subst hleft
    have hfits := Scan.Fits.statement n hm h
    rw [items_eq]
    cases hs : (statement n).run b with
    | error e b' =>
      rw [hs] at hfits
      exact .error hfits.isOverfull_eq hfits.within
    | ok a b' =>
      rw [hs] at hfits
      obtain ⟨k, item⟩ := a
      cases item with
      | none => exact .ok hfits.within
      | some item => exact ih _ (left_statement hs) k hfits.within rfl

/-! ## Reading a passage -/

/-- Reading a passage is reading the stack of its characters. -/
theorem read_passage (t : Text) :
    (read (⟨t⟩ : Passage)).items = (items 1 (⟨t⟩ : Stack)).items ∧
      (read (⟨t⟩ : Passage)).ending.result = (items 1 (⟨t⟩ : Stack)).ending.result := by
  have hwithin : (Buffered.start (⟨t⟩ : Passage)).Within 8192 := ⟨rfl, Nat.zero_le _⟩
  have hfits := fits_items 1 (by decide) hwithin
  -- the buffer and the stack differ in nothing but overflows, and there is none
  have hrel : unbounding.rel [] (Buffered.start (⟨t⟩ : Passage)) ⟨t⟩ := rfl
  have hagree := Simulation.agree_items 1 hrel fun _ _ he => hfits.not_isOverfull he
  exact ⟨hagree.1, hagree.2.result_eq⟩

theorem settings_passage (t : Text) :
    (read (⟨t⟩ : Passage)).settings = (items 1 (⟨t⟩ : Stack)).settings :=
  congrArg (List.filterMap Item.setting?) (read_passage t).1

theorem warnings_passage (t : Text) :
    (read (⟨t⟩ : Passage)).warnings = (items 1 (⟨t⟩ : Stack)).warnings :=
  congrArg (List.filterMap Item.warning?) (read_passage t).1

theorem returned_passage (t : Text) :
    (read (⟨t⟩ : Passage)).returned = (items 1 (⟨t⟩ : Stack)).returned := by
  unfold Reading.returned
  rw [settings_passage, (read_passage t).2]

end Settings

end Rescan
