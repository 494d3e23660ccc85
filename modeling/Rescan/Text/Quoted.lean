import Rescan.Text.Blank
import Rescan.Text.Mark
import Rescan.Text.Unassigned

/-!
# Quoted texts

Texts and characters as they are shown in messages: between quotes, on one line, and such that
everything in them can be seen. A character that would not show, or would change the look of its
neighbours, is written by its number.

## Main definitions

* `isHidden`: the characters written by their number.
* `Text.quoted`, `quotedChar`: a text between double quotes and a character between single ones.
-/

namespace Rescan

/-- Control characters: the general category `Cc`. -/
def controlRanges : Ranges :=
  [(0x0000, 0x001F), (0x007F, 0x009F)]

/-- Format characters: the general category `Cf`. -/
def formatRanges : Ranges :=
  [(0x00AD, 0x00AD), (0x0600, 0x0605), (0x061C, 0x061C), (0x06DD, 0x06DD), (0x070F, 0x070F),
   (0x0890, 0x0891), (0x08E2, 0x08E2), (0x180E, 0x180E), (0x200B, 0x200F), (0x202A, 0x202E),
   (0x2060, 0x2064), (0x2066, 0x206F), (0xFEFF, 0xFEFF), (0xFFF9, 0xFFFB), (0x110BD, 0x110BD),
   (0x110CD, 0x110CD), (0x13430, 0x1343F), (0x1BCA0, 0x1BCA3), (0x1D173, 0x1D17A),
   (0xE0001, 0xE0001), (0xE0020, 0xE007F)]

/-- The code points with the property `Default_Ignorable_Code_Point`: where they are not supported
nothing is shown, and fillers show nothing anyway. -/
def ignorableRanges : Ranges :=
  [(0x00AD, 0x00AD), (0x034F, 0x034F), (0x061C, 0x061C), (0x115F, 0x1160), (0x17B4, 0x17B5),
   (0x180B, 0x180F), (0x200B, 0x200F), (0x202A, 0x202E), (0x2060, 0x206F), (0x3164, 0x3164),
   (0xFE00, 0xFE0F), (0xFEFF, 0xFEFF), (0xFFA0, 0xFFA0), (0xFFF0, 0xFFF8), (0x1BCA0, 0x1BCA3),
   (0x1D173, 0x1D17A), (0xE0000, 0xE0FFF)]

/-- Code points for private use: the general category `Co`. -/
def privateRanges : Ranges :=
  [(0xE000, 0xF8FF), (0xF0000, 0xFFFFD), (0x100000, 0x10FFFD)]

example : controlRanges.ascending && formatRanges.ascending && ignorableRanges.ascending &&
    privateRanges.ascending := by decide

/-- Whether a character is written by its number: a combining mark, a control, format or ignorable
character, a blank that is not the space, or a code point for private use or without a character. -/
def isHidden (c : Char) : Bool :=
  isMark c || inRanges controlRanges c.toNat || inRanges formatRanges c.toNat ||
    inRanges ignorableRanges c.toNat || (isBlank c && c != ' ') ||
    inRanges privateRanges c.toNat || isUnassigned c

/-- A filler is a letter by its category, but it does not show. -/
example : isHidden '\u115f' = true := by decide +kernel

/-- A character as it is written between quotes: the quote itself, the backslash and some control
characters after a backslash, a hidden character by its number, and any other as it is. -/
def escaped (quote c : Char) : Text :=
  if c = quote ∨ c = '\\' then ['\\', c]
  else if c = '\t' then ['\\', 't']
  else if c = '\r' then ['\\', 'r']
  else if c = '\n' then ['\\', 'n']
  else if c = '\x00' then ['\\', '0']
  else if isHidden c then ['\\', 'u', '\x7b'] ++ Nat.toDigits 16 c.toNat ++ ['\x7d']
  else [c]

/-- A text between double quotes. -/
def Text.quoted (t : Text) : Text :=
  '"' :: t.flatMap (escaped '"') ++ ['"']

/-- A character between single quotes. -/
def quotedChar (c : Char) : Text :=
  '\'' :: escaped '\'' c ++ ['\'']

example : Text.quoted ['a', '"', '\'', '\x1b'] =
    ['"', 'a', '\\', '"', '\'', '\\', 'u', '\x7b', '1', 'b', '\x7d', '"'] := by decide +kernel

example : quotedChar '\'' = ['\'', '\\', '\'', '\''] := by decide

end Rescan
