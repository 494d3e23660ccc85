import Rescan.Proofs.Decoding
import Rescan.Proofs.Lifting
import Rescan.Source.Passage

/-!
# The same text from any source

A text can be read as a passage, from a feed of its characters, or from a reader of its encoding. A
session cannot tell which: it sees the same characters and the same end, and so it has the same
results. The reader counts in bytes what the passage has handed out in characters.

## Main definitions

* `ByteSource.Spells`: the bytes that are left are those of a passage.
* `SourceSimulation.decoding`, `SourceSimulation.feeding`: reading bytes, or a feed, is reading a
  passage.

## Main statements

* `sources_interchangeable`: a session on any of the three sources of a text.
-/

namespace Rescan

/-! ## Readers of bytes -/

/-- The bytes left of an unbroken reader are the encoding of what is left of a passage. When the passage
is at its end, `total` bytes will have been taken. -/
def ByteSource.Spells (total : Nat) (b : ByteSource) (p : Passage) : Prop :=
  ∃ n, b.Holds n (Utf8.encode p.rest) ∧ n + p.byteSize = total

/-- A reader of the encoding of a text, beside the passage of that text. -/
def SourceSimulation.decoding (total : Nat) : SourceSimulation ByteSource Passage where
  rel := ByteSource.Spells total
  excused _ := False
  next := by
    intro b p h
    obtain ⟨t⟩ := p
    obtain ⟨n, hb, hn⟩ := h
    show Outcome.Agree _ _ _ (ByteSource.next.run b) (Passage.next ⟨t⟩)
    cases t with
    | nil =>
      obtain ⟨b', hb', hrun⟩ := ByteSource.next_nil hb
      rw [hrun]
      exact .ok ⟨n, hb', hn⟩
    | cons c t =>
      -- the bytes of the character move from those left to those taken
      obtain ⟨b', hb', hrun⟩ := ByteSource.next_encoded hb
      rw [hrun]
      refine .ok ⟨_, hb', ?_⟩
      rw [← hn, Passage.byteSize, Passage.byteSize, Utf8.encode_cons, List.length_append,
        Nat.add_assoc]

/-! ## Feeds -/

/-- A feed without ends between its characters, beside the passage of these. -/
def SourceSimulation.feeding : SourceSimulation Feed Passage where
  rel f p := f.answers = p.rest.map some
  excused _ := False
  next := by
    intro f p h
    obtain ⟨answers⟩ := f
    obtain ⟨t⟩ := p
    dsimp only at h
    subst h
    show Outcome.Agree _ _ _ (Feed.next _) (Passage.next _)
    cases t with
    | nil => exact .ok rfl
    | cons c t => exact .ok rfl

/-! ## Sessions -/

/-- **Sources of the same text are interchangeable.** Whatever is asked of a buffered source, step by
step and also after a fault, has the same result and leaves the same characters pending and the same
count, whether the text comes from a passage, from a feed of its characters, or from a reader that
gives the bytes of its encoding. The reader has the bytes of what is left of the passage still to give,
and the bytes that it has given are the others. -/
theorem sources_interchangeable {t : Text} {script : Script} (hu : script.isUnbroken = true)
    (hb : script.bytes = Utf8.encode t) (options : Options) (steps : List Step) :
    let passage := Scan.trace Step.perform steps (Buffered.start (⟨t⟩ : Passage) options)
    let feed := Scan.trace Step.perform steps (Buffered.start (⟨t.map some⟩ : Feed) options)
    let reader := Scan.trace Step.perform steps (Buffered.start ({ script } : ByteSource) options)
    List.Forall₂ (Outcome.Alike fun f p => f.answers = p.rest.map some) feed passage ∧
    List.Forall₂ (Outcome.Alike fun b p => b.bytes = Utf8.encode p.rest ∧
      b.consumed + p.byteSize = (Utf8.encode t).length) reader passage := by
  intro passage feed reader
  constructor
  · exact SourceSimulation.feeding.trace_alike (fun _ h => h) steps ⟨rfl, rfl, rfl, rfl⟩
  · -- at the start all bytes are left and none has been taken
    have hspells : ByteSource.Spells (Utf8.encode t).length { script } ⟨t⟩ :=
      ⟨0, ⟨hu, hb, rfl⟩, Nat.zero_add _⟩
    have halike := (SourceSimulation.decoding (Utf8.encode t).length).trace_alike (fun _ h => h) steps
      (b := Buffered.start { script } options) (c := Buffered.start ⟨t⟩ options)
      ⟨hspells, rfl, rfl, rfl⟩
    apply halike.imp
    intro o o' h
    apply h.mono
    intro b p hspells
    obtain ⟨n, hholds, hn⟩ := hspells
    exact ⟨hholds.bytes, by rw [hholds.consumed, hn]⟩

/-- Two characters whose bytes come in pieces, a sign that does not fit back behind its look-ahead, and
a character read behind the back of the buffer. -/
theorem sources_interchangeable_straddling :
    let t : Text := ['+', '€', 'é']
    let script : Script :=
      [.data [0x2B, 0xE2], .interrupt, .data [0x82], .data [], .data [0xAC, 0xC3, 0xA9]]
    let steps : List Step := [.ask .signed, .pull, .ask (.handBack (some 'x')), .ask .remainder]
    let options : Options := { capacity := 1 }
    script.isUnbroken = true ∧ script.bytes = Utf8.encode t ∧
      List.Forall₂ (Outcome.Alike fun f p => f.answers = p.rest.map some)
        (Scan.trace Step.perform steps (Buffered.start (⟨t.map some⟩ : Feed) options))
        (Scan.trace Step.perform steps (Buffered.start (⟨t⟩ : Passage) options)) ∧
      List.Forall₂ (Outcome.Alike fun b p => b.bytes = Utf8.encode p.rest ∧
          b.consumed + p.byteSize = (Utf8.encode t).length)
        (Scan.trace Step.perform steps (Buffered.start ({ script } : ByteSource) options))
        (Scan.trace Step.perform steps (Buffered.start (⟨t⟩ : Passage) options)) := by
  intro t script steps options
  have hb : script.bytes = Utf8.encode t := by decide +kernel
  exact ⟨rfl, hb, sources_interchangeable rfl hb options steps⟩

end Rescan
