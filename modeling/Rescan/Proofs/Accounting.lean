import Rescan.Proofs.Decoding
import Rescan.Proofs.Signals

/-!
# Every byte is accounted for

A read of a character can end in the middle of a sequence: at a byte that leads none, at an end, at a
failure, or with bytes that encode nothing. What it took until then stays taken, and the next read goes
on from there. So the account has to be right whatever the reader does: the bytes taken are the first
ones of the script, the counter says how many they are, and every read that is no end uses something up,
so that reading on after faults comes to an end.

## Main definitions

* `ByteSource.Account`: what a read uses up, by its result.
* `Source.after`: the state after some reads, whatever they ended in.

## Main statements

* `ByteSource.nextByte_cases`, `trail_cases`, `account_next`: the account of one read.
* `ByteSource.takes_after`, `exists_after_ended`: the account of many reads.
* `reads_accounted`: the same in bytes, for every script.
-/

namespace Rescan

open String (utf8EncodeChar)

/-- A leading byte announces between one and four bytes. -/
theorem Utf8.announced_bounds {lead : UInt8} {n : Nat} (h : announced lead = some n) :
    1 ≤ n ∧ n ≤ 4 := by
  unfold announced at h
  split_ifs at h <;> cases h <;> decide

namespace ByteSource

/-! ## One read -/

/-- The rest of a sequence is complete, or an end or a failure comes before that. The induction is on
the number of bytes that are wanted. -/
theorem trail_cases (start n : Nat) (b : ByteSource) :
    (∃ (rest : List UInt8) (b' : ByteSource), (trail start n).run b = .ok rest b' ∧
      rest.length = n ∧ Takes (rest.map .byte) b b') ∨
    (∃ (rest : List UInt8) (taken : List Signal) (b' : ByteSource),
      (trail start n).run b = .error (.malformed start) b' ∧
        rest.length < n ∧ IsEnd taken ∧ Takes (rest.map .byte ++ taken) b b') ∨
    ∃ (rest : List UInt8) (message : String) (b' : ByteSource),
      (trail start n).run b = .error (.reader message) b' ∧
        rest.length < n ∧ Takes (rest.map .byte ++ [.failure message]) b b' := by
  induction n generalizing b with
  | zero => exact .inl ⟨[], b, rfl, rfl, rfl, rfl⟩
  | succ n ih =>
    rw [run_trail_succ]
    rcases nextByte_cases b with ⟨byte, b₁, h₁, ht₁⟩ | ⟨taken, b₁, h₁, he, ht₁⟩ | ⟨message, b₁, h₁, ht₁⟩
    · -- one byte more, and then whatever becomes of the others
      rw [h₁, Outcome.bind_ok]
      dsimp only
      rcases ih b₁ with ⟨rest, b₂, h₂, hn, ht₂⟩ | ⟨rest, taken, b₂, h₂, hn, he, ht₂⟩ |
        ⟨rest, message, b₂, h₂, hn, ht₂⟩
      all_goals rw [h₂]
      · exact .inl ⟨byte :: rest, b₂, rfl, congrArg (· + 1) hn, ht₁.trans ht₂⟩
      · exact .inr (.inl ⟨byte :: rest, taken, b₂, rfl, Nat.succ_lt_succ hn, he, ht₁.trans ht₂⟩)
      · exact .inr (.inr ⟨byte :: rest, message, b₂, rfl, Nat.succ_lt_succ hn, ht₁.trans ht₂⟩)
    · rw [h₁]
      exact .inr (.inl ⟨[], taken, b₁, rfl, Nat.succ_pos n, he, ht₁⟩)
    · rw [h₁]
      exact .inr (.inr ⟨[], message, b₁, rfl, Nat.succ_pos n, ht₁⟩)

/-- What a read that begins at an offset uses up, by its result. -/
inductive Account (offset : Nat) : Except Fault (Option Char) → List Signal → Prop where
  /-- A character uses up its encoding. -/
  | char (c : Char) : Account offset (.ok (some c)) ((utf8EncodeChar c).map .byte)
  /-- An end uses up no byte. -/
  | ended {taken : List Signal} : IsEnd taken → Account offset (.ok none) taken
  /-- A malformed sequence uses up its bytes as far as they were read, and the end that came before
  the others. -/
  | malformed (bytes : List UInt8) {taken : List Signal} :
      1 ≤ bytes.length → bytes.length ≤ 4 → IsEnd taken →
      Account offset (.error (.malformed offset)) (bytes.map .byte ++ taken)
  /-- A failure uses up the bytes before it, which are too few for a sequence. -/
  | failed (bytes : List UInt8) (message : String) : bytes.length ≤ 3 →
      Account offset (.error (.reader message)) (bytes.map .byte ++ [.failure message])

/-- The account of one read, whatever the reader does. -/
theorem account_next (b : ByteSource) :
    ∃ taken, Account b.consumed (next.run b).result taken ∧ Takes taken b (next.run b).state := by
  rw [run_next]
  rcases nextByte_cases b with ⟨lead, b₁, h₁, ht₁⟩ | ⟨taken, b₁, h₁, he, ht₁⟩ | ⟨message, b₁, h₁, ht₁⟩
  · rw [h₁, Outcome.bind_ok]
    dsimp only
    cases ha : Utf8.announced lead with
    | none =>
      -- this byte leads no sequence, and nothing else was taken
      exact ⟨[.byte lead], .malformed [lead] (by simp) (by simp) (.inl rfl), ht₁⟩
    | some length =>
      obtain ⟨hpos, hlen⟩ := Utf8.announced_bounds ha
      dsimp only
      rcases trail_cases b.consumed (length - 1) b₁ with ⟨rest, b₂, h₂, hn, ht₂⟩ |
        ⟨rest, taken, b₂, h₂, hn, he, ht₂⟩ | ⟨rest, message, b₂, h₂, hn, ht₂⟩
      all_goals
        have ht := ht₁.trans ht₂
        have hle : (lead :: rest).length ≤ 4 := by
          rw [List.length_cons]
          omega
        rw [h₂]
      · -- the sequence is complete, and is an encoding or is not
        rw [Outcome.bind_ok]
        cases hd : Utf8.decode (lead :: rest) with
        | none =>
          refine ⟨_, .malformed (lead :: rest) (by simp) hle (.inl rfl), ?_⟩
          rw [List.append_nil]
          exact ht
        | some c =>
          refine ⟨_, .char c, ?_⟩
          rw [← Utf8.decode_eq_some_iff.1 hd]
          exact ht
      · exact ⟨_, .malformed (lead :: rest) (by simp) hle he, ht⟩
      · -- a failure before the last byte of a sequence of at most four
        refine ⟨_, .failed (lead :: rest) message ?_, ht⟩
        rw [List.length_cons]
        omega
  · rw [h₁]
    exact ⟨taken, .ended he, ht₁⟩
  · rw [h₁]
    exact ⟨[.failure message], .failed [] message (Nat.zero_le _), ht₁⟩

/-- A read that is no end uses something up. -/
theorem Account.ne_nil {offset : Nat} {result : Except Fault (Option Char)} {taken : List Signal}
    (h : Account offset result taken) (hr : result ≠ .ok none) : taken ≠ [] := by
  cases h with
  | char c => exact fun hnil => Utf8.encodeChar_ne_nil c (List.map_eq_nil_iff.1 hnil)
  | ended => exact absurd rfl hr
  | malformed bytes hpos =>
    intro hnil
    obtain ⟨hbytes, -⟩ := List.append_eq_nil_iff.1 hnil
    rw [List.map_eq_nil_iff.1 hbytes] at hpos
    exact absurd hpos (by decide)
  | failed => simp

end ByteSource

/-! ## Many reads -/

/-- The state after some reads, whatever each of them ended in. -/
def Source.after {σ : Type} [Source σ] (s : σ) : Nat → σ
  | 0 => s
  | n + 1 => after (Source.next.run s).state n

namespace ByteSource

/-- The account of some reads; the induction is on their number. -/
theorem takes_after (b : ByteSource) (n : Nat) : ∃ taken, Takes taken b (Source.after b n) := by
  induction n generalizing b with
  | zero => exact ⟨[], rfl, rfl⟩
  | succ n ih =>
    obtain ⟨taken, -, h⟩ := account_next b
    obtain ⟨taken', h'⟩ := ih (next.run b).state
    exact ⟨taken ++ taken', h.trans h'⟩

/-- Reading on after faults comes to an end, after no more reads than there are signals. The induction
is on the signals that are left. -/
theorem exists_after_ended (b : ByteSource) :
    ∃ n b', n ≤ b.signals.length ∧ Source.next.run (Source.after b n) = .ok none b' := by
  induction hlen : b.signals.length using Nat.strongRecOn generalizing b with
  | ind m ih =>
    subst hlen
    obtain ⟨taken, hacc, ht⟩ := account_next b
    by_cases hr : (next.run b).result = .ok none
    · refine ⟨0, (next.run b).state, Nat.zero_le _, ?_⟩
      show next.run b = _
      cases hn : next.run b with
      | ok c b' =>
        rw [hn] at hr
        cases hr
        rfl
      | error e b' =>
        rw [hn] at hr
        cases hr
    · -- what was used up is missing from the signals that are left
      have hlt : (next.run b).state.signals.length < b.signals.length := by
        have := List.length_pos_iff.2 (hacc.ne_nil hr)
        rw [ht.signals, List.length_append]
        omega
      obtain ⟨n, b', hn, hend⟩ := ih _ hlt (next.run b).state rfl
      exact ⟨n + 1, b', by omega, hend⟩

end ByteSource

/-- **Every byte is accounted for.** Read characters from a script, going on after ends and faults. At
any time the first bytes of the script, as many as the counter says, have been taken, and the others are
still there. The next read takes the encoding of the character that it answers, and nothing else; an
end takes nothing; a malformed sequence is reported at the offset where it began and takes between one
and four bytes; a failure takes at most three. An end is reached after finitely many reads. -/
theorem reads_accounted (script : Script) :
    (∀ n, let b := Source.after ({ script } : ByteSource) n
      script.bytes = script.bytes.take b.consumed ++ b.bytes ∧ b.consumed ≤ script.bytes.length ∧
      (∀ c b', Source.next.run b = .ok (some c) b' →
        b.bytes = utf8EncodeChar c ++ b'.bytes ∧
          b'.consumed = b.consumed + (utf8EncodeChar c).length) ∧
      (∀ b', Source.next.run b = .ok none b' → b.bytes = b'.bytes ∧ b'.consumed = b.consumed) ∧
      ∀ e b', Source.next.run b = .error e b' →
        ∃ taken, b.bytes = taken ++ b'.bytes ∧ b'.consumed = b.consumed + taken.length ∧
          (e = .malformed b.consumed ∧ 1 ≤ taken.length ∧ taken.length ≤ 4 ∨
            (∃ message, e = .reader message) ∧ taken.length ≤ 3)) ∧
    ∃ n b', n ≤ script.signals.length ∧
      Source.next.run (Source.after ({ script } : ByteSource) n) = .ok none b' := by
  refine ⟨fun n => ?_, ByteSource.exists_after_ended { script }⟩
  intro b
  obtain ⟨before, hbefore⟩ := ByteSource.takes_after { script } n
  have hbytes : script.bytes = Signal.bytes before ++ b.bytes := hbefore.bytes
  have hconsumed : b.consumed = (Signal.bytes before).length :=
    hbefore.consumed.trans (Nat.zero_add _)
  -- what the next read takes, in bytes
  obtain ⟨taken, hacc, ht⟩ := ByteSource.account_next b
  have htaken := ht.bytes
  have hcount := ht.consumed
  have hnext : Source.next.run b = ByteSource.next.run b := rfl
  refine ⟨?_, ?_, fun c b' h => ?_, fun b' h => ?_, fun e b' h => ?_⟩
  · rw [hconsumed, hbytes, List.take_left]
  · rw [hconsumed, hbytes, List.length_append]
    exact Nat.le_add_right _ _
  all_goals
    rw [← hnext, h] at hacc htaken hcount
    cases hacc
  · rw [Signal.bytes_map_byte] at htaken hcount
    exact ⟨htaken, hcount⟩
  · next hend =>
    rw [hend.bytes_eq] at htaken hcount
    exact ⟨htaken, hcount⟩
  · next bytes taken hpos hlen hend =>
    rw [Signal.bytes_append, Signal.bytes_map_byte, hend.bytes_eq, List.append_nil] at htaken hcount
    exact ⟨bytes, htaken, hcount, .inl ⟨rfl, hpos, hlen⟩⟩
  · next bytes message hlen =>
    rw [Signal.bytes_append, Signal.bytes_map_byte] at htaken hcount
    have hfailure : Signal.bytes [.failure message] = [] := rfl
    rw [hfailure, List.append_nil] at htaken hcount
    exact ⟨bytes, htaken, hcount, .inr ⟨⟨message, rfl⟩, hlen⟩⟩

/-- A reader that fails after the first byte of a sequence and finds an end later. What follows the
failure leads no sequence; behind the end there is a character again. -/
theorem reads_accounted_broken :
    let script : Script :=
      [.data [0x61, 0xE2], .failure "lost", .data [0x82], .pause, .data [0xC3, 0xA9]]
    let state := Source.after ({ script } : ByteSource)
    Source.next.run (state 0) = .ok (some 'a') (state 1) ∧
      Source.next.run (state 1) = .error (.reader "lost") (state 2) ∧
      Source.next.run (state 2) = .error (.malformed 2) (state 3) ∧
      Source.next.run (state 3) = .ok none (state 4) ∧
      Source.next.run (state 4) = .ok (some 'é') (state 5) ∧
      script.bytes = script.bytes.take (state 4).consumed ++ (state 4).bytes ∧
      (state 3).bytes = (state 4).bytes ∧
      (state 4).bytes = utf8EncodeChar 'é' ++ (state 5).bytes ∧
      ∃ n b', n ≤ script.signals.length ∧ Source.next.run (state n) = .ok none b' := by
  intro script state
  have hpause : Source.next.run (state 3) = .ok none (state 4) := by decide +kernel
  have hchar : Source.next.run (state 4) = .ok (some 'é') (state 5) := by decide +kernel
  obtain ⟨haccount, hend⟩ := reads_accounted script
  obtain ⟨-, -, -, hended, -⟩ := haccount 3
  obtain ⟨htaken, -, hread, -, -⟩ := haccount 4
  refine ⟨by decide +kernel, by decide +kernel, by decide +kernel, hpause, hchar, htaken, ?_, ?_, hend⟩
  · exact (hended _ hpause).1
  · exact (hread _ _ hchar).1

end Rescan
