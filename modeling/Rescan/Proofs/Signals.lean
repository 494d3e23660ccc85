import Mathlib.Logic.Relation
import Rescan.Source.Bytes

/-!
# What a reader signals

The events of a script are not what can be noticed of a reader. Where the bytes of one piece end and
those of the next begin does not show, and neither does an interruption. What shows is one byte after
the other, and between them the failures and the ends, each at its place. These are the *signals* of
a script, and a reader answers by them alone.

## Main definitions

* `Signal`, `Script.signals`: what can be noticed, in order.
* `Script.Rewrite`, `Script.Rechunked`: dividing the bytes in another way.
* `ByteSource.Takes`: which signals an action has used up.

## Main statements

* `Script.mapState_next`: a reader answers by its signals.
* `Script.rechunked_iff`: dividing the bytes in another way reaches all scripts with the same signals,
  and no others.
-/

namespace Rescan

/-! ## Signals -/

/-- What can be noticed when a reader is asked for a byte. -/
inductive Signal where
  | byte (value : UInt8)
  | failure (message : String)
  | pause
deriving DecidableEq, Repr

namespace Signal

/-- The byte, if the signal is one. -/
def byte? : Signal → Option UInt8
  | byte value => some value
  | failure _ => none
  | pause => none

/-- The bytes among some signals. -/
def bytes (signals : List Signal) : List UInt8 :=
  signals.filterMap byte?

/-- What a reader with these signals answers when it is asked for a byte. Behind the last signal there
is an end for ever. -/
def answer : List Signal → Outcome (List Signal) (Option UInt8)
  | [] => .ok none []
  | .byte value :: rest => .ok (some value) rest
  | .failure message :: rest => .error (.reader message) rest
  | .pause :: rest => .ok none rest

@[simp] theorem bytes_append (signals signals' : List Signal) :
    bytes (signals ++ signals') = bytes signals ++ bytes signals' :=
  List.filterMap_append

@[simp] theorem bytes_map_byte (values : List UInt8) : bytes (values.map .byte) = values := by
  rw [bytes, List.filterMap_map]
  exact List.filterMap_some

end Signal

/-- The signals of an event: those of its bytes, its own, or none. -/
def Event.signals : Event → List Signal
  | .data bytes => bytes.map .byte
  | .interrupt => []
  | .failure message => [.failure message]
  | .pause => [.pause]

namespace Script

/-- The signals of a script, in order. -/
def signals (script : Script) : List Signal :=
  script.flatMap Event.signals

@[simp] theorem signals_cons (event : Event) (script : Script) :
    signals (event :: script) = event.signals ++ signals script := rfl

@[simp] theorem signals_append (script script' : Script) :
    signals (script ++ script') = signals script ++ signals script' :=
  List.flatMap_append

/-- The bytes of a script are those among its signals. -/
theorem bytes_eq (script : Script) : script.bytes = Signal.bytes script.signals := by
  fun_induction bytes script <;> simp_all [Event.signals] <;> rfl

/-- A reader answers by its signals. -/
theorem mapState_next (script : Script) :
    script.next.mapState signals = Signal.answer script.signals := by
  fun_induction next script with
  | case2 rest ih =>
    -- a piece without bytes, which has no signals
    exact ih
  | case4 rest ih =>
    -- an interruption, which has none either
    exact ih
  | _ => rfl

/-! ## Other divisions of the bytes -/

/-- One step by which a script is divided in another way. Bytes, failures and ends stay in order. -/
inductive Rewrite : Script → Script → Prop where
  /-- An interruption is left out. -/
  | interrupt (before after : Script) : Rewrite (before ++ .interrupt :: after) (before ++ after)
  /-- A piece without bytes is left out. -/
  | empty (before after : Script) : Rewrite (before ++ .data [] :: after) (before ++ after)
  /-- A piece is split in two. -/
  | split (before after : Script) (left right : List UInt8) :
      Rewrite (before ++ .data (left ++ right) :: after)
        (before ++ .data left :: .data right :: after)

/-- Two scripts divide the same bytes, between the same failures and ends, each in its own way: one is
reached from the other by steps in either direction. -/
def Rechunked : Script → Script → Prop :=
  Relation.EqvGen Rewrite

theorem Rewrite.signals_eq {script script' : Script} (h : Rewrite script script') :
    script.signals = script'.signals := by
  cases h <;> simp [Event.signals]

theorem Rewrite.cons (event : Event) {script script' : Script} (h : Rewrite script script') :
    Rewrite (event :: script) (event :: script') := by
  cases h with
  | interrupt before after => exact .interrupt (event :: before) after
  | empty before after => exact .empty (event :: before) after
  | split before after left right => exact .split (event :: before) after left right

theorem Rechunked.signals_eq {script script' : Script} (h : Rechunked script script') :
    script.signals = script'.signals := by
  induction h with
  | rel _ _ h => exact h.signals_eq
  | refl _ => rfl
  | symm _ _ _ ih => exact ih.symm
  | trans _ _ _ _ _ ih₁ ih₂ => exact ih₁.trans ih₂

theorem Rechunked.cons (event : Event) {script script' : Script} (h : Rechunked script script') :
    Rechunked (event :: script) (event :: script') := by
  induction h with
  | rel _ _ h => exact .rel _ _ (h.cons event)
  | refl _ => exact .refl _
  | symm _ _ _ ih => exact ih.symm
  | trans _ _ _ _ _ ih₁ ih₂ => exact ih₁.trans _ _ _ ih₂

/-- The script in which every byte is a piece of its own. -/
def ofSignals (signals : List Signal) : Script :=
  signals.map fun
    | .byte value => .data [value]
    | .failure message => .failure message
    | .pause => .pause

/-- The bytes of a piece can be taken apart; the induction is on the bytes. -/
theorem rechunked_data (bytes : List UInt8) (script : Script) :
    Rechunked (.data bytes :: script) (ofSignals (bytes.map .byte) ++ script) := by
  induction bytes with
  | nil => exact .rel _ _ (.empty [] script)
  | cons byte bytes ih =>
    -- the first byte becomes a piece of its own
    have hsplit : Rewrite (.data (byte :: bytes) :: script) (.data [byte] :: .data bytes :: script) :=
      .split [] script [byte] bytes
    exact (Relation.EqvGen.rel _ _ hsplit).trans _ _ _ (ih.cons (.data [byte]))

/-- Every script can be divided into single bytes. -/
theorem rechunked_ofSignals (script : Script) : Rechunked script (ofSignals script.signals) := by
  induction script with
  | nil => exact .refl _
  | cons event script ih =>
    rw [signals_cons]
    cases event with
    | data bytes =>
      rw [ofSignals, List.map_append]
      exact (ih.cons (.data bytes)).trans _ _ _ (rechunked_data bytes _)
    | interrupt => exact (Relation.EqvGen.rel _ _ (.interrupt [] script)).trans _ _ _ ih
    | failure message => exact ih.cons (.failure message)
    | pause => exact ih.cons .pause

/-- **Signals are what another division keeps.** Two scripts are divisions of the same bytes, between
the same failures and ends, exactly when they have the same signals. -/
theorem rechunked_iff {script script' : Script} :
    Rechunked script script' ↔ script.signals = script'.signals := by
  constructor
  · exact Rechunked.signals_eq
  · intro h
    have h' := (rechunked_ofSignals script').symm
    rw [← h] at h'
    exact (rechunked_ofSignals script).trans _ _ _ h'

end Script

/-! ## Signals of a source -/

namespace ByteSource

/-- The signals that a source has still to give. -/
def signals (b : ByteSource) : List Signal :=
  b.script.signals

theorem bytes_eq (b : ByteSource) : b.bytes = Signal.bytes b.signals :=
  b.script.bytes_eq

/-- From one state to another these signals were used up, and their bytes were counted. -/
structure Takes (taken : List Signal) (b b' : ByteSource) : Prop where
  signals : b.signals = taken ++ b'.signals
  consumed : b'.consumed = b.consumed + (Signal.bytes taken).length

theorem Takes.trans {t t' : List Signal} {b b' b'' : ByteSource} (h : Takes t b b')
    (h' : Takes t' b' b'') : Takes (t ++ t') b b'' := by
  refine ⟨?_, ?_⟩
  · rw [h.signals, h'.signals, List.append_assoc]
  · rw [h'.consumed, h.consumed, Signal.bytes_append, List.length_append, Nat.add_assoc]

/-- The bytes used up are the first of those there were. -/
theorem Takes.bytes {t : List Signal} {b b' : ByteSource} (h : Takes t b b') :
    b.bytes = Signal.bytes t ++ b'.bytes := by
  rw [bytes_eq, h.signals, Signal.bytes_append, ← bytes_eq]

/-! ### One read -/

/-- The rest of a sequence by its first byte. -/
theorem run_trail_succ (start n : Nat) (b : ByteSource) :
    (trail start (n + 1)).run b = (nextByte.run b).bind fun byte b₁ =>
      match byte with
      | none => .error (.malformed start) b₁
      | some byte => ((trail start n).run b₁).map (byte :: ·) := by
  rw [trail, Scan.run_bind]
  cases nextByte.run b with
  | error e b₁ => rfl
  | ok byte b₁ =>
    cases byte with
    | none => rfl
    | some byte =>
      show ((trail start n).run b₁).bind _ = ((trail start n).run b₁).map _
      cases (trail start n).run b₁ <;> rfl

/-- A read by the leading byte, the length that it announces, and the rest of the sequence. -/
theorem run_next (b : ByteSource) :
    next.run b = (nextByte.run b).bind fun lead b₁ =>
      match lead with
      | none => .ok none b₁
      | some lead =>
        match Utf8.announced lead with
        | none => .error (.malformed b.consumed) b₁
        | some length =>
          ((trail b.consumed (length - 1)).run b₁).bind fun rest b₂ =>
            match Utf8.decode (lead :: rest) with
            | none => .error (.malformed b.consumed) b₂
            | some c => .ok (some c) b₂ := by
  show (nextByte.run b).bind _ = (nextByte.run b).bind _
  cases nextByte.run b with
  | error e b₁ => rfl
  | ok lead b₁ =>
    cases lead with
    | none => rfl
    | some lead =>
      simp only [Outcome.bind_ok]
      cases Utf8.announced lead with
      | none => rfl
      | some length =>
        show ((trail b.consumed (length - 1)).run b₁).bind _ =
          ((trail b.consumed (length - 1)).run b₁).bind _
        cases (trail b.consumed (length - 1)).run b₁ with
        | error e b₂ => rfl
        | ok rest b₂ =>
          simp only [Outcome.bind_ok]
          cases Utf8.decode (lead :: rest) <;> rfl

/-- The signals of an end: the one that happens once, or none at all behind the last one. -/
def IsEnd (taken : List Signal) : Prop :=
  taken = [] ∨ taken = [.pause]

theorem IsEnd.bytes_eq {taken : List Signal} (h : IsEnd taken) : Signal.bytes taken = [] := by
  rcases h with rfl | rfl <;> rfl

/-- The three ways in which asking for a byte can end, and what each of them uses up. -/
theorem nextByte_cases (b : ByteSource) :
    (∃ byte b', nextByte.run b = .ok (some byte) b' ∧ Takes [.byte byte] b b') ∨
    (∃ taken b', nextByte.run b = .ok none b' ∧ IsEnd taken ∧ Takes taken b b') ∨
    ∃ message b', nextByte.run b = .error (.reader message) b' ∧
      Takes [.failure message] b b' := by
  obtain ⟨script, consumed⟩ := b
  -- the answer is that of the first signal
  have hview := script.mapState_next
  cases hs : script.signals with
  | nil =>
    -- behind the last one there is an end, which uses up nothing
    rw [hs] at hview
    obtain ⟨rest, hnext, hrest⟩ := Outcome.mapState_eq_ok_iff.1 hview
    refine .inr (.inl ⟨[], ⟨rest, consumed⟩, by simp [nextByte, hnext], .inl rfl, ?_, rfl⟩)
    simp [signals, hs, hrest]
  | cons signal left =>
    rw [hs] at hview
    cases signal with
    | byte byte =>
      obtain ⟨rest, hnext, hrest⟩ := Outcome.mapState_eq_ok_iff.1 hview
      refine .inl ⟨byte, ⟨rest, consumed + 1⟩, by simp [nextByte, hnext], ?_, rfl⟩
      simp [signals, hs, hrest]
    | failure message =>
      obtain ⟨rest, hnext, hrest⟩ := Outcome.mapState_eq_error_iff.1 hview
      refine .inr (.inr ⟨message, ⟨rest, consumed⟩, by simp [nextByte, hnext], ?_, rfl⟩)
      simp [signals, hs, hrest]
    | pause =>
      -- an end that happens once is used up
      obtain ⟨rest, hnext, hrest⟩ := Outcome.mapState_eq_ok_iff.1 hview
      refine .inr (.inl ⟨[.pause], ⟨rest, consumed⟩, by simp [nextByte, hnext], .inr rfl, ?_, rfl⟩)
      simp [signals, hs, hrest]

end ByteSource

end Rescan
