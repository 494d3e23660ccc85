import Rescan.Text.Ranges

/-!
# Texts and blank characters

A text is the list of its characters, since a stream hands them out one by one. A character is
*blank* when it has the Unicode property `White_Space`; a text is blank when all its characters are.

## Main definitions

* `Text`: a finite sequence of characters.
* `isBlank`: the `White_Space` property, as a table of ranges.
* `Text.isBlank`, `Text.trimEnd`: blank texts, and a text without its trailing blanks.
-/

namespace Rescan

/-- A finite sequence of characters. -/
abbrev Text := List Char

/-! ## The property `White_Space` -/

/-- The code points with the property `White_Space`. -/
def blankRanges : Ranges :=
  [(0x0009, 0x000D), (0x0020, 0x0020), (0x0085, 0x0085), (0x00A0, 0x00A0), (0x1680, 0x1680),
   (0x2000, 0x200A), (0x2028, 0x2029), (0x202F, 0x202F), (0x205F, 0x205F), (0x3000, 0x3000)]

/-- Whether a character has the property `White_Space`. -/
def isBlank (c : Char) : Bool :=
  inRanges blankRanges c.toNat

/-- Every character that is white space in ASCII is blank: the table only adds to that set. -/
theorem isBlank_of_isWhitespace {c : Char} (h : c.isWhitespace = true) : isBlank c = true := by
  simp only [Char.isWhitespace, Bool.or_eq_true, decide_eq_true_eq] at h
  rcases h with ((rfl | rfl) | rfl) | rfl <;> decide

example : blankRanges.ascending = true := by decide

example : blankRanges.count = 25 := by decide

/-- The zero-width space is not among them. -/
example : isBlank '\u200b' = false := by decide

/-! ## Blank texts -/

/-- Whether all characters of a text are blank; the empty text is blank. -/
def Text.isBlank (t : Text) : Bool :=
  t.all Rescan.isBlank

/-- A text without the blanks at its end. -/
def Text.trimEnd (t : Text) : Text :=
  (t.reverse.dropWhile Rescan.isBlank).reverse

end Rescan
