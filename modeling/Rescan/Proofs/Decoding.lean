import Mathlib.Tactic.SplitIfs
import Rescan.Source.Bytes

/-!
# Reading bytes accepts exactly UTF-8

Bytes are decoded one sequence at a time, and the length of a sequence is taken from its leading
byte before the rest of it is seen. So there are two things to show. Nothing that is well-formed is
refused: the leading byte of an encoding announces the length of the encoding. And what is refused
is the first defect: where a sequence is refused, no character is encoded, whatever the length
announced.

## Main definitions

* `Script.isUnbroken`: readers without a failure or an end before their last byte.
* `ByteSource.Holds`: a source, by the bytes that are left and the number of those taken.
* `drain`: what a source hands out until it answers something else than a character.

## Main statements

* `Utf8.announced_encodeChar`, `Utf8.encodeChar_prefix_unique`: what is used of the encoding.
* `ByteSource.next_nil`, `next_encoded`, `next_defect`: the three ways in which a read can end.
* `drain_locates_defect`: what is handed out is the longest well-formed text at the front.
-/

namespace Rescan

open String (utf8EncodeChar)

/-! ## Encodings -/

namespace Utf8

private theorem toNat_val_lt (c : Char) : c.val.toNat < 0x110000 := by
  rcases c.valid with h | ⟨-, h⟩
  · exact Nat.lt_trans h (by decide)
  · exact h

/-- The leading byte of an encoding announces its length. The encoding has one of four forms by the
size of the code point, and the leading bytes of each form are those of one class. -/
theorem announced_encodeChar {c : Char} {lead : UInt8} {trail : List UInt8}
    (h : utf8EncodeChar c = lead :: trail) : announced lead = some (trail.length + 1) := by
  have hv := toNat_val_lt c
  rw [utf8EncodeChar] at h
  generalize c.val.toNat = v at hv h
  simp only [announced, UInt8.le_iff_toNat_le]
  split_ifs at h with h₁ h₂ h₃
  all_goals
    obtain ⟨rfl, rfl⟩ := List.cons.inj h
    simp only [UInt8.toNat_ofNat', UInt8.toNat_ofNat]
  · -- one byte
    rw [if_pos (by omega)]
    rfl
  · -- two bytes, where the bound on `v` keeps the leading byte above the overlong forms
    rw [if_neg (by omega), if_pos (by omega)]
    rfl
  · -- three bytes
    rw [if_neg (by omega), if_neg (by omega), if_pos (by omega)]
    rfl
  · -- four bytes, where the last code point keeps the leading byte below the unused ones
    rw [if_neg (by omega), if_neg (by omega), if_neg (by omega), if_pos (by omega)]
    rfl

/-- The core library finds the character whose encoding stands at the front. -/
theorem utf8DecodeChar?_eq_some_iff {bytes : List UInt8} {c : Char} :
    bytes.toByteArray.utf8DecodeChar? 0 = some c ↔ utf8EncodeChar c <+: bytes := by
  constructor
  · intro h
    obtain ⟨l, hl⟩ := ByteArray.exists_of_utf8DecodeChar?_eq_some h
    refine ⟨l.data.toList, ?_⟩
    have := congrArg (fun b => b.data.toList) hl
    simpa using this.symm
  · intro h
    obtain ⟨rest, rfl⟩ := h
    rw [List.toByteArray_append]
    exact ByteArray.utf8DecodeChar?_utf8EncodeChar_append

/-- No encoding begins with another one. -/
theorem encodeChar_prefix_unique {c d : Char} {bytes : List UInt8}
    (hc : utf8EncodeChar c <+: bytes) (hd : utf8EncodeChar d <+: bytes) : c = d := by
  rw [← utf8DecodeChar?_eq_some_iff] at hc hd
  exact Option.some.inj (hc.symm.trans hd)

theorem encodeChar_ne_nil (c : Char) : utf8EncodeChar c ≠ [] := by
  have := c.utf8Size_pos
  rw [← String.length_utf8EncodeChar] at this
  exact List.length_pos_iff.1 this

/-- Where nothing is left no character is encoded. -/
theorem not_encodeChar_prefix_nil (c : Char) : ¬ utf8EncodeChar c <+: [] :=
  fun h => encodeChar_ne_nil c (List.prefix_nil.1 h)

@[simp] theorem encode_nil : encode [] = [] := rfl

@[simp] theorem encode_cons (c : Char) (t : Text) :
    encode (c :: t) = utf8EncodeChar c ++ encode t := rfl

/-- If a text is followed by something that encodes no character, then a text that is encoded at the
front is no longer than it. The induction is on the first text, which has to spell the second one
character by character. -/
theorem length_encode_le {t u : Text} {rest : List UInt8}
    (hrest : ∀ c, ¬ utf8EncodeChar c <+: rest) (h : encode u <+: encode t ++ rest) :
    (encode u).length ≤ (encode t).length := by
  induction t generalizing u with
  | nil =>
    cases u with
    | nil => simp
    | cons d u =>
      -- a first character of `u` would be encoded in what follows
      rw [encode_cons, encode_nil, List.nil_append] at h
      exact absurd ((List.prefix_append _ _).trans h) (hrest d)
  | cons c t ih =>
    cases u with
    | nil => simp
    | cons d u =>
      rw [encode_cons, encode_cons, List.append_assoc] at h
      have hcd : d = c :=
        encodeChar_prefix_unique ((List.prefix_append _ _).trans h) (List.prefix_append _ _)
      subst hcd
      have := ih ((List.prefix_append_right_inj _).1 h)
      simpa using this

/-! ### Decoders of slices -/

/-- What a decoder of slices is known to do: it finds the character whose encoding stands at the
front of a slice, with the length of the encoding, and nothing in a slice that begins with no
encoding. -/
def IsDecoder (decoder : List UInt8 → Option (Char × Nat)) : Prop :=
  ∀ bytes c n, decoder bytes = some (c, n) ↔ utf8EncodeChar c <+: bytes ∧ n = c.utf8Size

/-- The character that a decoder finds, if its encoding is the whole slice. -/
def wholeBy (decoder : List UInt8 → Option (Char × Nat)) (bytes : List UInt8) : Option Char :=
  match decoder bytes with
  | some (c, n) => if n = bytes.length then some c else none
  | none => none

/-- Whatever decoder of slices is used, a whole sequence is decoded in the same way. -/
theorem wholeBy_eq_decode {decoder : List UInt8 → Option (Char × Nat)} (h : IsDecoder decoder) :
    wholeBy decoder = decode := by
  funext bytes
  apply Option.ext
  intro c
  rw [decode_eq_some_iff, wholeBy]
  constructor
  · intro hc
    split at hc
    · next d n hd =>
      obtain ⟨hpre, rfl⟩ := (h bytes d n).1 hd
      split_ifs at hc with hn
      cases hc
      rw [← String.length_utf8EncodeChar] at hn
      exact (hpre.eq_of_length hn).symm
    · cases hc
  · intro hc
    have hd := (h bytes c c.utf8Size).2 ⟨hc ▸ List.prefix_refl _, rfl⟩
    have hn : c.utf8Size = bytes.length := by rw [hc, String.length_utf8EncodeChar]
    simp [hd, hn]

/-- A decoder of slices made from the one of the core library, which does not tell the length. -/
def firstChar (bytes : List UInt8) : Option (Char × Nat) :=
  (bytes.toByteArray.utf8DecodeChar? 0).map fun c => (c, c.utf8Size)

theorem isDecoder_firstChar : IsDecoder firstChar := by
  intro bytes c n
  simp only [firstChar, Option.map_eq_some_iff, utf8DecodeChar?_eq_some_iff, Prod.mk.injEq]
  constructor
  · intro h
    obtain ⟨d, hd, rfl, rfl⟩ := h
    exact ⟨hd, rfl⟩
  · intro h
    exact ⟨c, h.1, rfl, h.2.symm⟩

end Utf8

/-! ## Unbroken readers -/

/-- Whether nothing comes between the bytes that could be noticed: no failure and no end. -/
def Script.isUnbroken (script : Script) : Bool :=
  script.all fun
    | .data _ => true
    | .interrupt => true
    | .failure _ => false
    | .pause => false

/-- An unbroken reader gives its bytes in order and then an end. -/
theorem Script.next_of_isUnbroken {script : Script} (h : script.isUnbroken = true) :
    ∃ rest, Script.isUnbroken rest = true ∧ Script.bytes rest = script.bytes.tail ∧
      script.next = .ok script.bytes.head? rest := by
  induction script with
  | nil => exact ⟨[], rfl, rfl, rfl⟩
  | cons event script ih =>
    simp only [isUnbroken, List.all_cons, Bool.and_eq_true] at h
    cases event with
    | data bytes =>
      cases bytes with
      | nil => exact ih h.2
      | cons byte bytes => exact ⟨.data bytes :: script, h.2, rfl, rfl⟩
    | interrupt => exact ih h.2
    | failure message => cases h.1
    | pause => cases h.1

namespace ByteSource

/-- The source has taken `n` bytes, and has these bytes left in an unbroken reader. -/
structure Holds (n : Nat) (left : List UInt8) (b : ByteSource) : Prop where
  unbroken : b.script.isUnbroken = true
  bytes : b.bytes = left
  consumed : b.consumed = n

variable {n k start : Nat} {byte : UInt8} {bytes taken : List UInt8} {b : ByteSource}

/-! ## One read -/

theorem nextByte_nil (h : Holds n [] b) :
    ∃ b', Holds n [] b' ∧ nextByte.run b = .ok none b' := by
  obtain ⟨rest, hu, hb, hn⟩ := Script.next_of_isUnbroken h.unbroken
  have hbytes : b.script.bytes = [] := h.bytes
  rw [hbytes] at hb hn
  refine ⟨{ b with script := rest }, ⟨hu, hb, h.consumed⟩, ?_⟩
  simp [nextByte, hn]

theorem nextByte_cons (h : Holds n (byte :: bytes) b) :
    ∃ b', Holds (n + 1) bytes b' ∧ nextByte.run b = .ok (some byte) b' := by
  obtain ⟨rest, hu, hb, hn⟩ := Script.next_of_isUnbroken h.unbroken
  have hbytes : b.script.bytes = byte :: bytes := h.bytes
  rw [hbytes] at hb hn
  refine ⟨{ script := rest, consumed := b.consumed + 1 }, ⟨hu, hb, congrArg (· + 1) h.consumed⟩, ?_⟩
  simp [nextByte, hn]

/-- If there are enough bytes, a trail takes as many as it should. -/
theorem trail_append (start : Nat) (h : Holds n (taken ++ bytes) b) :
    ∃ b', Holds (n + taken.length) bytes b' ∧ (trail start taken.length).run b = .ok taken b' := by
  induction taken generalizing n b with
  | nil => exact ⟨b, h, rfl⟩
  | cons byte taken ih =>
    obtain ⟨b₁, h₁, hrun₁⟩ := nextByte_cons h
    obtain ⟨b₂, h₂, hrun₂⟩ := ih h₁
    refine ⟨b₂, ?_, ?_⟩
    · rw [List.length_cons, Nat.add_comm taken.length, ← Nat.add_assoc]
      exact h₂
    · simp [trail, hrun₁, hrun₂]

/-- If there are not, the sequence is malformed. -/
theorem trail_short (start : Nat) (h : Holds n bytes b) (hk : bytes.length < k) :
    ∃ b', (trail start k).run b = .error (.malformed start) b' := by
  induction k generalizing n b bytes with
  | zero => simp at hk
  | succ k ih =>
    cases bytes with
    | nil =>
      obtain ⟨b₁, -, hrun₁⟩ := nextByte_nil h
      exact ⟨b₁, by simp [trail, hrun₁]⟩
    | cons byte bytes =>
      obtain ⟨b₁, h₁, hrun₁⟩ := nextByte_cons h
      obtain ⟨b₂, hrun₂⟩ := ih h₁ (Nat.lt_of_succ_lt_succ hk)
      exact ⟨b₂, by simp [trail, hrun₁, hrun₂]⟩

/-- At the end of the bytes there is no character. -/
theorem next_nil (h : Holds n [] b) : ∃ b', Holds n [] b' ∧ next.run b = .ok none b' := by
  obtain ⟨b₁, h₁, hrun₁⟩ := nextByte_nil h
  exact ⟨b₁, h₁, by simp [next, hrun₁]⟩

/-- A character that is encoded at the front is read, with all the bytes of its encoding. -/
theorem next_encoded {c : Char} (h : Holds n (utf8EncodeChar c ++ bytes) b) :
    ∃ b', Holds (n + (utf8EncodeChar c).length) bytes b' ∧ next.run b = .ok (some c) b' := by
  cases hc : utf8EncodeChar c with
  | nil => exact absurd hc (Utf8.encodeChar_ne_nil c)
  | cons lead taken =>
    rw [hc] at h
    obtain ⟨b₁, h₁, hrun₁⟩ := nextByte_cons h
    obtain ⟨b₂, h₂, hrun₂⟩ := trail_append b.consumed h₁
    refine ⟨b₂, ?_, ?_⟩
    · rw [List.length_cons, Nat.add_comm taken.length, ← Nat.add_assoc]
      exact h₂
    · -- the length is the one announced, and the sequence decodes to the character
      have hdecode := Utf8.decode_encodeChar c
      rw [hc] at hdecode
      simp [next, hrun₁, Utf8.announced_encodeChar hc, hrun₂, hdecode]

/-- If no character is encoded at the front, the read fails at the offset where it began. -/
theorem next_defect (h : Holds n bytes b) (hne : bytes ≠ [])
    (hdefect : ∀ c, ¬ utf8EncodeChar c <+: bytes) :
    ∃ b', next.run b = .error (.malformed n) b' := by
  cases bytes with
  | nil => exact absurd rfl hne
  | cons lead bytes =>
    obtain ⟨b₁, h₁, hrun₁⟩ := nextByte_cons h
    cases ha : Utf8.announced lead with
    | none => exact ⟨b₁, by simp [next, hrun₁, ha, h.consumed]⟩
    | some length =>
      by_cases hlen : bytes.length < length - 1
      · -- the input ends within the sequence
        obtain ⟨b₂, hrun₂⟩ := trail_short n h₁ hlen
        exact ⟨b₂, by simp [next, hrun₁, ha, h.consumed, hrun₂]⟩
      · -- the sequence is complete, but not the encoding of a character
        have htake : (bytes.take (length - 1)).length = length - 1 := by
          rw [List.length_take]
          omega
        rw [← List.take_append_drop (length - 1) bytes] at h₁
        obtain ⟨b₂, -, hrun₂⟩ := trail_append n h₁
        rw [htake] at hrun₂
        have hdecode : Utf8.decode (lead :: bytes.take (length - 1)) = none := by
          rw [Option.eq_none_iff_forall_ne_some]
          intro c hc
          apply hdefect c
          rw [← Utf8.decode_eq_some_iff.1 hc, List.cons_prefix_cons]
          exact ⟨rfl, List.take_prefix _ _⟩
        exact ⟨b₂, by simp [next, hrun₁, ha, h.consumed, hrun₂, hdecode]⟩

/-- The three ways in which a read from an unbroken reader can end. -/
theorem next_cases (h : Holds n bytes b) :
    (∃ c rest b', bytes = utf8EncodeChar c ++ rest ∧ Holds (n + (utf8EncodeChar c).length) rest b' ∧
      next.run b = .ok (some c) b') ∨
    (bytes = [] ∧ ∃ b', Holds n [] b' ∧ next.run b = .ok none b') ∨
    (bytes ≠ [] ∧ (∀ c, ¬ utf8EncodeChar c <+: bytes) ∧
      ∃ b', next.run b = .error (.malformed n) b') := by
  by_cases hc : ∃ c, utf8EncodeChar c <+: bytes
  · obtain ⟨c, rest, rfl⟩ := hc
    obtain ⟨b', h', hrun⟩ := next_encoded h
    exact .inl ⟨c, rest, b', rfl, h', hrun⟩
  · rw [not_exists] at hc
    by_cases hnil : bytes = []
    · subst hnil
      exact .inr (.inl ⟨rfl, next_nil h⟩)
    · exact .inr (.inr ⟨hnil, hc, next_defect h hnil hc⟩)

end ByteSource

/-! ## Reading on -/

/-- The characters that a source hands out until it answers something else, and that answer: an end
of input or a fault. -/
def drain {σ : Type} [Source σ] (s : σ) : Text × Outcome σ Unit :=
  match _h : Source.next.run s with
  | .ok (some c) s' => (c :: (drain s').1, (drain s').2)
  | .ok none s' => ([], .ok () s')
  | .error e s' => ([], .error e s')
termination_by Source.left s
decreasing_by all_goals exact Source.left_some _h

/-- One turn of reading on. -/
theorem drain_eq {σ : Type} [Source σ] (s : σ) :
    drain s = match Source.next.run s with
      | .ok (some c) s' => (c :: (drain s').1, (drain s').2)
      | .ok none s' => ([], .ok () s')
      | .error e s' => ([], .error e s') := by
  rw [drain]
  cases Source.next.run s with
  | ok c s' => cases c <;> rfl
  | error e s' => rfl

/-- How the bytes divide into what was handed out and the rest, by how reading on ended. -/
structure Located (n : Nat) (bytes : List UInt8) (t : Text) (ending : Outcome ByteSource Unit)
    (rest : List UInt8) : Prop where
  bytes_eq : bytes = Utf8.encode t ++ rest
  defect : ∀ c, ¬ utf8EncodeChar c <+: rest
  ending_eq : ∃ b, ending = if rest = [] then .ok () b
    else .error (.malformed (n + (Utf8.encode t).length)) b

/-- Reading on from an unbroken reader; the induction is on the number of bytes left. -/
theorem exists_located {n : Nat} {bytes : List UInt8} {b : ByteSource} (h : b.Holds n bytes) :
    ∃ rest, Located n bytes (drain b).1 (drain b).2 rest := by
  induction hlen : bytes.length using Nat.strongRecOn generalizing n bytes b with
  | ind m ih =>
    subst hlen
    have hnext : Source.next.run b = ByteSource.next.run b := rfl
    rw [drain_eq, hnext]
    rcases ByteSource.next_cases h with ⟨c, bytes, b', rfl, h', hrun⟩ | ⟨rfl, b', h', hrun⟩ |
      ⟨hne, hdefect, b', hrun⟩
    all_goals rw [hrun]
    · -- a character, and then the rest of the bytes
      have hlt : bytes.length < (utf8EncodeChar c ++ bytes).length := by
        have := List.length_pos_iff.2 (Utf8.encodeChar_ne_nil c)
        rw [List.length_append]
        omega
      obtain ⟨rest, hrest⟩ := ih _ hlt h' rfl
      obtain ⟨b'', hending⟩ := hrest.ending_eq
      refine ⟨rest, ?_, hrest.defect, b'', ?_⟩
      · rw [Utf8.encode_cons, List.append_assoc, ← hrest.bytes_eq]
      · rw [hending, Utf8.encode_cons, List.length_append, Nat.add_assoc]
    · exact ⟨[], rfl, Utf8.not_encodeChar_prefix_nil, b', rfl⟩
    · refine ⟨bytes, rfl, hdefect, b', ?_⟩
      rw [if_neg hne]
      rfl

/-- **Reading accepts exactly UTF-8 and finds the first defect.** Take a reader that does not fail,
and read characters until there is an answer that is none. The encoding of what was handed out
stands at the front of the bytes. If the last answer is an end, it is all of them; otherwise the
last answer reports a malformed sequence at the offset where the encoding ends, and there no
character is encoded. So the bytes are read to their end exactly when they are the encoding of a
text, and the offset reported is the length of the longest encoding of a text at the front. Nothing
of this depends on the decoder of slices that is used. -/
theorem drain_locates_defect (script : Script) (h : script.isUnbroken = true) :
    let bytes := script.bytes
    let ending := (drain ({ script } : ByteSource)).2
    let accepted := Utf8.encode (drain ({ script } : ByteSource)).1
    accepted <+: bytes ∧
    (∀ b, ending = .ok () b → accepted = bytes) ∧
    (∀ e b, ending = .error e b → e = .malformed accepted.length ∧
      bytes.drop accepted.length ≠ [] ∧
      ∀ c, ¬ utf8EncodeChar c <+: bytes.drop accepted.length) ∧
    ((∃ b, ending = .ok () b) ↔ ∃ t, Utf8.encode t = bytes) ∧
    (∀ t, Utf8.encode t <+: bytes → (Utf8.encode t).length ≤ accepted.length) ∧
    ∀ decoder, Utf8.IsDecoder decoder → Utf8.wholeBy decoder = Utf8.decode := by
  intro bytes ending accepted
  have hstart : ({ script } : ByteSource).Holds 0 bytes := ⟨h, rfl, rfl⟩
  obtain ⟨rest, hbytes, hdefect, b, hending⟩ := exists_located hstart
  change bytes = accepted ++ rest at hbytes
  change ending = _ at hending
  have hdrop : bytes.drop accepted.length = rest := by rw [hbytes, List.drop_left]
  have hlongest (t : Text) (ht : Utf8.encode t <+: bytes) :
      (Utf8.encode t).length ≤ accepted.length :=
    Utf8.length_encode_le hdefect (hbytes ▸ ht)
  rw [hdrop]
  refine ⟨⟨rest, hbytes.symm⟩, ?_, ?_, ?_, hlongest, fun _ => Utf8.wholeBy_eq_decode⟩
  · -- an end
    intro b' hb'
    rw [hb'] at hending
    split_ifs at hending with hrest
    rw [hbytes, hrest, List.append_nil]
  · -- a fault
    intro e b' hb'
    rw [hb'] at hending
    split_ifs at hending with hrest
    cases hending
    rw [Nat.zero_add]
    exact ⟨rfl, hrest, hdefect⟩
  · constructor
    · intro hb'
      obtain ⟨b', hb'⟩ := hb'
      rw [hb'] at hending
      split_ifs at hending with hrest
      exact ⟨_, by rw [hbytes, hrest, List.append_nil]⟩
    · intro ht
      obtain ⟨t, ht⟩ := ht
      -- the longest encoding at the front is the one of all bytes, which leaves no rest
      have hlen := hlongest t (ht ▸ List.prefix_refl _)
      have hrest : rest = [] := by
        rw [ht, hbytes, List.length_append] at hlen
        exact List.eq_nil_of_length_eq_zero (by omega)
      rw [if_pos hrest] at hending
      exact ⟨b, hending⟩

/-- Two characters in three pieces and an interruption, and then a sequence that its reader cuts
short. -/
theorem drain_locates_defect_truncated :
    let script : Script := [.data [0x61, 0xE2], .interrupt, .data [0x82], .data [0xAC, 0xE2, 0x82]]
    script.isUnbroken = true ∧
      (drain ({ script } : ByteSource)).1 = ['a', '€'] ∧
      (∃ b, (drain ({ script } : ByteSource)).2 = .error (.malformed 4) b) ∧
      Utf8.encode ['a', '€'] <+: script.bytes ∧
      (∀ c, ¬ utf8EncodeChar c <+: [0xE2, 0x82]) ∧
      Utf8.wholeBy Utf8.firstChar = Utf8.decode := by
  intro script
  have hrun : drain ({ script } : ByteSource) =
      (['a', '€'], .error (.malformed 4) { script := [], consumed := 6 }) := by
    decide +kernel
  have h := drain_locates_defect script rfl
  rw [hrun] at h
  obtain ⟨hpre, -, hfault, -, -, hdecoder⟩ := h
  exact ⟨rfl, by rw [hrun], ⟨_, by rw [hrun]⟩, hpre, (hfault _ _ rfl).2.2,
    hdecoder _ Utf8.isDecoder_firstChar⟩

end Rescan
