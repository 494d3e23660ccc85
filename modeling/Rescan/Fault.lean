import Rescan.Text.Blank

/-!
# Faults

A token that is not there is an ordinary answer. A *fault* is a failure to go on: the input is
damaged, a literal does not end, a number does not fit, or more characters were handed back than
the buffer may keep.
-/

namespace Rescan

/-- Why scanning failed. -/
inductive Fault where
  /-- The input ended inside a delimited literal; the closing delimiter is missing. -/
  | unclosed (delimiter : Char)
  /-- So many pending characters were requested of a buffer with less room. -/
  | overfull (capacity requested : Nat)
  /-- The numeral names a number outside the range asked for. -/
  | outOfRange (numeral : Text)
  /-- The bytes from this offset on are not the encoding of a character. -/
  | malformed (offset : Nat)
  /-- The reader of the input failed. -/
  | reader (message : String)
deriving DecidableEq, Repr

/-- The wording of a fault. -/
def Fault.message : Fault → String
  | .unclosed delimiter => s!"unexpected end of input, expected closing '{delimiter}'"
  | .overfull capacity requested =>
    s!"pushback buffer overflow: {requested} pending characters exceed capacity {capacity}"
  | .outOfRange numeral => "integer literal " ++ String.ofList numeral ++ " is out of range"
  | .malformed offset => s!"invalid UTF-8 sequence at byte offset {offset}"
  | .reader message => s!"i/o error: {message}"

end Rescan
