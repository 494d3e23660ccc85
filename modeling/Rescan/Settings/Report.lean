import Rescan.Settings.Reader
import Rescan.Text.Quoted

/-!
# The report on a settings document

Warnings go to the error channel. The settings go to the output channel if the whole document could
be read; otherwise there is no output, and the fault follows the warnings.
-/

namespace Rescan.Settings

/-- What is printed, and the exit code. -/
structure Report where
  exit : UInt32
  out : String
  err : String
deriving DecidableEq, Repr

/-- A value with its kind. -/
def Scalar.render : Scalar → Text
  | .quoted content => "Str(".toList ++ content.quoted ++ [')']
  | .integer n => "Int(".toList ++ (toString n).toList ++ [')']
  | .truth b => "Bool(".toList ++ truthName b ++ [')']
  | .bare text => "Word(".toList ++ text.quoted ++ [')']

/-- A number, with blanks in front of it up to three places. -/
def lineNumber (n : Nat) : Text :=
  (Nat.toDigits 10 n).leftpad 3 ' '

/-- A setting on a line of its own. -/
def Setting.render (x : Setting) : Text :=
  lineNumber x.line ++ ": ".toList ++ x.key ++ " => ".toList ++ x.value.render ++ ['\n']

/-- A warning on a line of its own. -/
def Warning.render : Warning → Text
  | .ignored line rest value =>
    "line ".toList ++ Nat.toDigits 10 line ++ ": ignoring ".toList ++ rest.quoted ++
      " after ".toList ++ value.render ++ ['\n']
  | .noValue line key rest =>
    "line ".toList ++ Nat.toDigits 10 line ++ ": expected '=' after ".toList ++ key.quoted ++
      ", skipping ".toList ++ rest.quoted ++ ['\n']

/-- A fault by its kind and what belongs to it. -/
def faultText : Fault → Text
  | .unclosed delimiter =>
    "Unterminated \x7b delimiter: ".toList ++ quotedChar delimiter ++ " \x7d".toList
  | .overfull capacity requested =>
    "PushbackOverflow \x7b capacity: ".toList ++ Nat.toDigits 10 capacity ++
      ", requested: ".toList ++ Nat.toDigits 10 requested ++ " \x7d".toList
  | .outOfRange numeral =>
    "IntegerOverflow \x7b digits: ".toList ++ Text.quoted numeral ++ " \x7d".toList
  | .malformed offset =>
    "InvalidUtf8 \x7b offset: ".toList ++ Nat.toDigits 10 offset ++ " \x7d".toList
  | .reader message => "Io(".toList ++ Text.quoted message.toList ++ [')']

/-- The report on what was read. -/
def Reading.report {σ : Type} (r : Reading σ) : Report :=
  let warnings := r.warnings.flatMap Warning.render
  match r.ending with
  | .ok _ _ =>
    { exit := 0
      out := String.ofList (r.settings.flatMap Setting.render)
      err := String.ofList warnings }
  | .error e _ =>
    { exit := 1
      out := ""
      err := String.ofList (warnings ++ "Error: ".toList ++ faultText e ++ ['\n']) }

end Rescan.Settings
