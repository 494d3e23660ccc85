import Rescan.Proofs.Accounting
import Rescan.Proofs.Settings.Progress

/-!
# How reading settings ends

Reading ends where no key is found. Before a key is looked for, blanks and comments are left out, so
what comes next is no blank, and if it is no key either then there is nothing left: not in the buffer,
and not in the source. Until then only the document itself can be at fault, by a quoted text, a number
or a byte; that there is no room for what is handed back does not happen.

## Main definitions

* `Cause`: the faults that a document can cause.
* `ByteSource.HasDecoded`: a source that has read a text off the front of its bytes.
* `Buffered.IsSpent`, `Buffered.StopsAt`: what is known of the next character.

## Main statements

* `next_isSpent`, `passOver_stopsAt`, `dropComments_stopsAt`, `statement_isSpent`: looking for a
  statement and finding none uses up everything.
* `read_ends_for_cause`: how a document ends, and what was done until then.
-/

namespace Rescan

open CharStream Buffered

open String (utf8EncodeChar)

/-! ## Causes -/

/-- The faults that a document can cause, by its bytes. -/
inductive Settings.Cause (bytes : List UInt8) : Fault → Prop where
  /-- A quoted text does not end. -/
  | unclosed {quote : Char} : quote = '"' ∨ quote = '\'' → Cause bytes (.unclosed quote)
  /-- A number does not fit. -/
  | outOfRange (numeral : Text) : Cause bytes (.outOfRange numeral)
  /-- Behind the encoding of a text there are bytes left that are the encoding of no character. -/
  | malformed (t : Text) {rest : List UInt8} :
      bytes = Utf8.encode t ++ rest → rest ≠ [] → (∀ c, ¬ utf8EncodeChar c <+: rest) →
      Cause bytes (.malformed (Utf8.encode t).length)

/-! ## Sources of bytes -/

/-- A text was read off the front of these bytes, and the others are still to come. -/
def ByteSource.HasDecoded (bytes : List UInt8) (b : ByteSource) : Prop :=
  ∃ t rest, bytes = Utf8.encode t ++ rest ∧ b.Holds (Utf8.encode t).length rest

/-- Reading reads another character off the front, or finds the end or the first defect. -/
theorem ByteSource.HasDecoded.ends_next {bytes : List UInt8} {b : ByteSource}
    (h : b.HasDecoded bytes) :
    (Source.next.run b).Ends (HasDecoded bytes) fun e =>
      Settings.Cause bytes e ∨ e.isOverfull = true := by
  obtain ⟨t, rest, hbytes, hholds⟩ := h
  show (ByteSource.next.run b).Ends _ _
  rcases next_cases hholds with ⟨c, rest, b', rfl, h', hrun⟩ | ⟨rfl, b', h', hrun⟩ |
    ⟨hne, hdefect, b', hrun⟩
  all_goals rw [hrun]
  · -- the character joins the text
    have hencode : Utf8.encode (t ++ [c]) = Utf8.encode t ++ utf8EncodeChar c := by
      simp [Utf8.encode]
    refine ⟨t ++ [c], rest, ?_, ?_⟩
    · rw [hencode, hbytes, List.append_assoc]
    · rw [hencode, List.length_append]
      exact h'
  · exact ⟨t, [], hbytes, h'⟩
  · exact .inl (.malformed t hbytes hne hdefect)

/-- Faults of a source of bytes do not speak of room. -/
instance : Unbuffered ByteSource where
  isOverfull_next b := by
    obtain ⟨taken, haccount, -⟩ := ByteSource.account_next b
    show (ByteSource.next.run b).isOverfull = false
    cases hrun : ByteSource.next.run b with
    | ok c b' => rfl
    | error e b' =>
      rw [hrun] at haccount
      cases haccount <;> rfl

/-- What reading settings keeps of the source, and what it can end in. -/
def Invariant.decoded (bytes : List UInt8) : Invariant (Buffered ByteSource) :=
  .buffered (ByteSource.HasDecoded bytes) (fun e => Settings.Cause bytes e ∨ e.isOverfull = true)
    (fun _ h => h.ends_next) fun _ _ => .inr rfl

/-! ## What comes next -/

namespace Buffered

/-- Nothing is left to be read. -/
def IsSpent (b : Buffered ByteSource) : Prop :=
  b.pending = [] ∧ b.source.bytes = []

/-- What comes next is pending and does not have the property, or nothing is left. -/
def StopsAt (p : Char → Bool) (b : Buffered ByteSource) : Prop :=
  (∃ c t, b.pending = c :: t ∧ p c = false) ∨ b.IsSpent

variable {bytes : List UInt8} {b b₁ b₂ : Buffered ByteSource} {p : Char → Bool}

theorem hasDecoded_of_ok {α : Type} {x : Scan (Buffered ByteSource) α} {a : α}
    (hx : (Invariant.decoded bytes).Keeps x) (h : b.source.HasDecoded bytes)
    (hrun : x.run b = .ok a b₁) : b₁.source.HasDecoded bytes :=
  hx.holds_of_ok h hrun

/-- Where a read finds an end nothing is left. -/
theorem next_isSpent (h : b.source.HasDecoded bytes) (hnext : Source.next.run b = .ok none b₁) :
    b₁.IsSpent := by
  obtain ⟨hpending, source, hs, rfl⟩ := next_eq_none hnext
  obtain ⟨t, rest, -, hholds⟩ := h
  change ByteSource.next.run b.source = _ at hs
  rcases ByteSource.next_cases hholds with ⟨c, rest, b', -, -, hrun⟩ | ⟨-, b', h', hrun⟩ |
    ⟨-, -, b', hrun⟩
  all_goals
    rw [hs] at hrun
    cases hrun
  exact ⟨hpending, h'.bytes⟩

/-- Where nothing is left a read finds an end. -/
theorem IsSpent.next (hspent : b.IsSpent) (h : b.source.HasDecoded bytes) :
    ∃ b₁, Source.next.run b = .ok none b₁ ∧ b₁.IsSpent := by
  obtain ⟨t, rest, -, hholds⟩ := h
  have hrest : rest = [] := hholds.bytes.symm.trans hspent.2
  subst hrest
  obtain ⟨source, h', hrun⟩ := ByteSource.next_nil hholds
  refine ⟨{ b with source }, ?_, hspent.1, h'.bytes⟩
  show Buffered.next b = _
  have hsource : Source.next.run b.source = .ok none source := hrun
  simp [Buffered.next, hspent.1, hsource]

/-- Looking at what comes next does not change what it is. -/
theorem StopsAt.peek {c : Option Char} (hstops : b.StopsAt p) (h : b.source.HasDecoded bytes)
    (hpeek : CharStream.peek.run b = .ok c b₁) : b₁.StopsAt p := by
  obtain ⟨b₂, hnext, hback⟩ := peek_eq_ok_iff.1 hpeek
  rcases hstops with ⟨d, t, hpending, hd⟩ | hspent
  · -- what was pending is pending again
    have hread : Source.next.run b = _ := next_of_pending hpending
    rw [hread] at hnext
    cases hnext
    obtain ⟨-, rfl⟩ := putBack_eq_ok_iff.1 hback
    exact .inl ⟨d, t, rfl, hd⟩
  · obtain ⟨b', hread, hspent'⟩ := hspent.next h
    rw [hread] at hnext
    cases hnext
    cases hback
    exact .inr hspent'

/-- Passing over characters stops at what comes next. -/
theorem passOver_stopsAt {t : Text} (h : b.source.HasDecoded bytes)
    (hpass : (Settings.passOver p).run b = .ok t b₁) : b₁.StopsAt p := by
  change Settings.passOverFrom p b = _ at hpass
  fun_induction Settings.passOverFrom p b generalizing t with
  | case1 => cases hpass
  | case2 b b' hpeek =>
    -- a look at an end
    cases hpass
    obtain ⟨b₂, hnext, hback⟩ := peek_eq_ok_iff.1 hpeek
    cases hback
    exact .inr (next_isSpent h hnext)
  | case3 => cases hpass
  | case4 b c b₂ hpeek hp d b₃ hnext ih =>
    obtain ⟨u, hu, -⟩ := Outcome.map_eq_ok_iff.1 hpass
    have hdecoded := hasDecoded_of_ok Invariant.keeps_peek h hpeek
    exact ih (hasDecoded_of_ok Invariant.keeps_next hdecoded hnext) hu
  | case5 b c b' hpeek hp =>
    -- a look at a character, which is pending now
    cases hpass
    obtain ⟨b₂, -, hback⟩ := peek_eq_ok_iff.1 hpeek
    obtain ⟨-, rfl⟩ := putBack_eq_ok_iff.1 hback
    exact .inl ⟨c, b₂.pending, rfl, Bool.not_eq_true _ ▸ hp⟩

end Buffered

/-! ## Looking for a statement -/

namespace Settings

variable {bytes : List UInt8} {b b₁ : Buffered ByteSource}

/-- Behind blanks and comments there is no blank. -/
theorem dropComments_stopsAt {n m : Nat} (h : b.source.HasDecoded bytes)
    (hrun : (dropComments n).run b = .ok m b₁) : b₁.StopsAt isBlank := by
  change dropCommentsFrom n b = _ at hrun
  fun_induction dropCommentsFrom n b with
  | case1 => cases hrun
  | case2 => cases hrun
  | case3 => cases hrun
  | case4 n b blanks b₂ h₂ b₃ l b₄ h₄ h₃ ih =>
    -- a comment, and whatever follows it
    have hdecoded := hasDecoded_of_ok (Invariant.keeps_passOver isBlank) h h₂
    have hdecoded := hasDecoded_of_ok Invariant.keeps_peek hdecoded h₃
    exact ih (hasDecoded_of_ok Invariant.keeps_line hdecoded h₄) hrun
  | case5 n b blanks b₂ h₂ c b₃ h₃ hc =>
    cases hrun
    exact (passOver_stopsAt h h₂).peek (hasDecoded_of_ok (Invariant.keeps_passOver isBlank) h h₂) h₃

/-- If what comes next is no blank and no word either, nothing is left. -/
theorem word_isSpent (h : b.source.HasDecoded bytes) (hstops : b.StopsAt isBlank)
    (hrun : word.run b = .ok none b₁) : b₁.IsSpent := by
  obtain ⟨t, b₂, hspan, ht⟩ := Scan.run_bind_eq_ok_iff.1 hrun
  change spanFrom _ b = _ at hspan
  rw [spanFrom_eq] at hspan
  rcases hstops with ⟨c, u, hpending, hc⟩ | hspent
  · -- a word begins here
    have hread : Source.next.run b = _ := next_of_pending hpending
    rw [hread, Outcome.bind_ok] at hspan
    simp only [hc, Bool.not_false, if_true] at hspan
    obtain ⟨v, -, rfl⟩ := Outcome.map_eq_ok_iff.1 hspan
    cases ht
  · obtain ⟨b', hread, hspent'⟩ := hspent.next h
    rw [hread] at hspan
    cases hspan
    cases ht
    exact hspent'

/-- If there is no statement any more, nothing is left. -/
theorem statement_isSpent {n m : Nat} (h : b.source.HasDecoded bytes)
    (hrun : (statement n).run b = .ok (m, none) b₁) : b₁.IsSpent := by
  obtain ⟨k, b₂, h₂, hrun⟩ := Scan.run_bind_eq_ok_iff.1 hrun
  obtain ⟨key, b₃, h₃, hrun⟩ := Scan.run_bind_eq_ok_iff.1 hrun
  cases key with
  | none =>
    cases hrun
    have hdecoded := hasDecoded_of_ok (Invariant.keeps_dropComments n) h h₂
    exact word_isSpent hdecoded (dropComments_stopsAt h h₂) h₃
  | some key =>
    obtain ⟨item, b₄, -, hrun⟩ := Scan.run_bind_eq_ok_iff.1 hrun
    cases hrun

/-- How a document ends that comes without a failure and without an end before its last byte. -/
theorem ending_read {script : Script} (h : script.isUnbroken = true) :
    match (read ({ script } : ByteSource)).ending with
    | .ok _ b => (∃ t, Utf8.encode t = script.bytes) ∧
        b.pending = [] ∧ b.source.bytes = [] ∧ b.source.consumed = script.bytes.length
    | .error e _ => Cause script.bytes e := by
  have hstart : (Invariant.decoded script.bytes).holds (start { script }) :=
    ⟨[], script.bytes, rfl, h, rfl, rfl⟩
  have hquote (quote : Char) (hq : quote = '"' ∨ quote = '\'') :
      (Invariant.decoded script.bytes).allowed (.unclosed quote) := Or.inl (.unclosed hq)
  have hrange (numeral : Text) : (Invariant.decoded script.bytes).allowed (.outOfRange numeral) :=
    Or.inl (.outOfRange numeral)
  have hends := Invariant.ends_items hquote hrange 1 hstart
  unfold read
  cases hending : (items 1 (start ({ script } : ByteSource))).ending with
  | ok m b =>
    -- the last look for a statement has used up everything, and it was all decoded
    rw [hending] at hends
    obtain ⟨k, m', b₁, hb₁, hlast⟩ := hends
    obtain ⟨hpending, hbytes⟩ := statement_isSpent hb₁ hlast
    have hb := hasDecoded_of_ok (Invariant.keeps_statement hquote hrange k) hb₁ hlast
    obtain ⟨t, rest, ht, hholds⟩ := hb
    have hrest : rest = [] := hholds.bytes.symm.trans hbytes
    rw [hrest, List.append_nil] at ht
    exact ⟨⟨t, ht.symm⟩, hpending, hbytes, by rw [hholds.consumed, ht]⟩
  | error e b =>
    -- the buffer has more room than is needed
    have hwithin : (start ({ script } : ByteSource)).Within 8192 := ⟨rfl, Nat.zero_le _⟩
    have hfits := fits_items 1 (by decide) hwithin
    rw [hending] at hends
    rcases hends with hcause | hover
    · exact hcause
    · exact absurd hover (hfits.not_isOverfull hending)

/-- **Settings are read to their end, or there is a cause.** Read settings from bytes that come without a
failure and without an end before the last of them. Reading always ends, since every statement takes its
key off the input: after no more items than bytes, and after a number of reads and returns that is linear
in the number of bytes. If it ends without a fault, the bytes are the encoding of a text and all of it
has been consumed. If it ends in a fault, the document is its cause; there is always room, and at no
point of the run more than five characters are pending. -/
theorem read_ends_for_cause (script : Script) (h : script.isUnbroken = true) :
    let reading := read ({ script } : ByteSource)
    let logged := items 1 (⟨start { script }, []⟩ : Logged (Buffered ByteSource))
    (match reading.ending with
      | .ok _ b => (∃ t, Utf8.encode t = script.bytes) ∧
          b.pending = [] ∧ b.source.bytes = [] ∧ b.source.consumed = script.bytes.length
      | .error e _ => Cause script.bytes e) ∧
    reading.items.length ≤ script.bytes.length ∧
    logged.items = reading.items ∧ logged.ending.mapState Logged.stream = reading.ending ∧
    (∀ b ∈ logged.ending.state.visited, b.pending.length ≤ 5) ∧
    logged.ending.state.visited.length ≤ 26 * script.bytes.length + 6 := by
  intro reading logged
  obtain ⟨hitems, hview, hpeak⟩ := read_logged ({ script } : ByteSource)
  refine ⟨ending_read h, ?_, hitems, hview, hpeak, ?_⟩
  · have hle := length_items_le 1 (start ({ script } : ByteSource))
    exact Nat.le_trans hle (Nat.le_of_eq (Nat.zero_add _))
  · -- at the start there is nothing in the log, and nothing is pending
    have hpotential : (⟨start { script }, []⟩ : Logged (Buffered ByteSource)).potential =
        26 * script.bytes.length := by
      show 0 + 26 * (0 + script.bytes.length) = _
      omega
    have hspends := spends_items 1 (⟨start { script }, []⟩ : Logged (Buffered ByteSource))
    rw [hpotential] at hspends
    exact hspends.visited_le

/-- A value that is no truth value, which shows only at the line feed: until then five characters have
been read, and they are pending all at once. -/
theorem read_ends_for_cause_five_pending :
    let script : Script := [.data [0xC3], .interrupt, .data [0xA9, 0x20, 0x3D, 0x20],
      .data [0x66, 0x61, 0x6C, 0x73, 0x0A]]
    let reading := read ({ script } : ByteSource)
    let logged := items 1 (⟨start { script }, []⟩ : Logged (Buffered ByteSource))
    script.isUnbroken = true ∧
      reading.items = [.setting 1 ['é'] (.bare ['f', 'a', 'l', 's']) none] ∧
      (∃ b, reading.ending = .ok 2 b ∧ b.pending = [] ∧ b.source.bytes = [] ∧
        b.source.consumed = script.bytes.length) ∧
      (∃ t, Utf8.encode t = script.bytes) ∧
      logged.items = reading.items ∧ logged.ending.mapState Logged.stream = reading.ending ∧
      (∀ b ∈ logged.ending.state.visited, b.pending.length ≤ 5) ∧
      (∃ b ∈ logged.ending.state.visited, b.pending.length = 5) ∧
      logged.ending.state.visited.length ≤ 26 * 10 + 6 := by
  intro script reading logged
  obtain ⟨hending, -, hitems, hview, hpeak, hlength⟩ := read_ends_for_cause script rfl
  have hread : reading.items = [.setting 1 ['é'] (.bare ['f', 'a', 'l', 's']) none] := by
    decide +kernel
  have hline : reading.ending.result = .ok 2 := by decide +kernel
  have hfive : ∃ b ∈ logged.ending.state.visited, b.pending.length = 5 := by decide +kernel
  change (match reading.ending with
    | .ok _ b => _
    | .error e _ => _) at hending
  cases hcase : reading.ending with
  | error e b =>
    rw [hcase] at hline
    cases hline
  | ok m b =>
    rw [hcase] at hline hending
    cases hline
    obtain ⟨htext, hspent⟩ := hending
    exact ⟨rfl, hread, ⟨b, rfl, hspent⟩, htext, hitems, hcase ▸ hview, hpeak, hfive, hlength⟩

end Settings

end Rescan
