/-!
# Ranges of code points

A property of characters is kept as a list of closed ranges of code points, ascending and apart.

## Main statements

* `inRanges_iff`: in an ascending table, the lookup finds exactly the code points of its ranges.
-/

namespace Rescan

/-- Closed ranges of code points. -/
abbrev Ranges := List (Nat × Nat)

/-- Whether no range is empty, and each starts beyond the end of the one before, with a gap. -/
def Ranges.ascending : Ranges → Bool
  | [] => true
  | [r] => r.1 ≤ r.2
  | r :: r' :: rest => r.1 ≤ r.2 && r.2 + 1 < r'.1 && ascending (r' :: rest)

/-- The number of code points in the ranges. -/
def Ranges.count : Ranges → Nat
  | [] => 0
  | r :: rest => r.2 + 1 - r.1 + Ranges.count rest

/-- Whether a code point lies in one of the ranges. The search ends at the first range that starts
beyond it. -/
def inRanges : Ranges → Nat → Bool
  | [], _ => false
  | r :: rest, n => r.1 ≤ n && (n ≤ r.2 || inRanges rest n)

/-- In an ascending table, every range starts beyond the first one. -/
theorem Ranges.lt_of_mem {r r' : Nat × Nat} {rest : Ranges}
    (h : ascending (r :: rest) = true) (hr : r' ∈ rest) : r.2 < r'.1 := by
  induction rest generalizing r with
  | nil => cases hr
  | cons q rest ih =>
    simp only [ascending, Bool.and_eq_true, decide_eq_true_eq] at h
    obtain ⟨⟨_, hq⟩, hrest⟩ := h
    rcases List.mem_cons.1 hr with rfl | hr
    · omega
    · -- the range in between is not empty
      have hlt := ih hrest hr
      have : q.1 ≤ q.2 := by
        cases rest <;> simp_all [ascending]
      omega

/-- In an ascending table, the lookup finds exactly the code points of its ranges. -/
theorem inRanges_iff {ranges : Ranges} (h : ranges.ascending = true) (n : Nat) :
    inRanges ranges n = true ↔ ∃ r ∈ ranges, r.1 ≤ n ∧ n ≤ r.2 := by
  induction ranges with
  | nil => simp [inRanges]
  | cons r rest ih =>
    have hrest : Ranges.ascending rest = true := by
      cases rest <;> simp_all [Ranges.ascending]
    simp only [inRanges, Bool.and_eq_true, Bool.or_eq_true, decide_eq_true_eq, ih hrest,
      List.mem_cons, exists_eq_or_imp]
    constructor
    · rintro ⟨hlo, hhi | hex⟩
      · exact .inl ⟨hlo, hhi⟩
      · exact .inr hex
    · rintro (⟨hlo, hhi⟩ | ⟨r', hr', hlo', hhi'⟩)
      · exact ⟨hlo, .inl hhi⟩
      · -- a later range starts beyond the end of this one
        have hlt := Ranges.lt_of_mem h hr'
        have hle : r.1 ≤ r.2 := by
          cases rest <;> simp_all [Ranges.ascending]
        exact ⟨by omega, .inr ⟨r', hr', hlo', hhi'⟩⟩

end Rescan
