import Rescan.Text.Blank

/-!
# Settings

A settings document is a sequence of lines. A line assigns a value to a key, or it is empty or a
comment. This file holds what such a document says, without the text it is written in.
-/

namespace Rescan.Settings

/-- The value of a setting. -/
inductive Scalar where
  /-- The content of a quoted text. -/
  | quoted (content : Text)
  | integer (n : Int)
  | truth (b : Bool)
  /-- Anything else: the text up to the end of the line. -/
  | bare (text : Text)
deriving DecidableEq, Repr

/-- What a line that is neither empty nor a comment says. -/
inductive Item where
  /-- A key with its value. What stands after the value is ignored. -/
  | setting (line : Nat) (key : Text) (value : Scalar) (ignored : Option Text)
  /-- A key without a value, and what stands after it. -/
  | stray (line : Nat) (key rest : Text)
deriving DecidableEq, Repr

/-- A key with its value and the number of its line. -/
structure Setting where
  line : Nat
  key : Text
  value : Scalar
deriving DecidableEq, Repr

/-- Something in a document that was left out, and the number of its line. -/
inductive Warning where
  /-- There is text after a value. -/
  | ignored (line : Nat) (rest : Text) (value : Scalar)
  /-- There is no equals sign after a key. -/
  | noValue (line : Nat) (key rest : Text)
deriving DecidableEq, Repr

namespace Item

/-- The setting that an item makes. -/
def setting? : Item → Option Setting
  | setting line key value _ => some { line, key, value }
  | stray .. => none

/-- The warning that an item causes. -/
def warning? : Item → Option Warning
  | setting line _ value (some rest) => some (.ignored line rest value)
  | setting _ _ _ none => none
  | stray line key rest => some (.noValue line key rest)

end Item

end Rescan.Settings
