import Rescan.Stream.Buffered
import Rescan.Token.Delimited
import Rescan.Token.Exact
import Rescan.Token.Line
import Rescan.Token.Numeral

/-!
# Sessions

Everything that can be asked of a stream, as data. A session is a list of requests that are answered
one after the other; a request that ends in a fault does not end the session.

## Main definitions

* `Request`, `Reply`, `Request.perform`: requests that every stream can answer.
* `Step`, `Step.perform`: what can be done with a buffered source, which can also be read
  behind its buffer's back.
-/

namespace Rescan

open CharStream

/-- What can be asked of a stream. -/
inductive Request where
  | next
  | peek
  /-- Hand the answer of a read back. -/
  | handBack (c : Option Char)
  /-- Hand a text back. -/
  | putBack (t : Text)
  | delimited (d : Delimiters)
  | digits
  | line
  | word
  | unsigned
  | signed
  | boolean
  | truth (b : Bool)
  | exactly (t : Text)
  | dropBlanks
  | dropBlankLines
  | remainder
deriving DecidableEq, Repr

/-- What a request is answered with. -/
inductive Reply where
  | done
  | char (c : Option Char)
  | text (t : Option Text)
  | number (n : Option Int)
  | truth (b : Option Bool)
deriving DecidableEq, Repr

/-- Answers a request. -/
def Request.perform {σ : Type} [CharStream σ] : Request → Scan σ Reply
  | .next => return .char (← Source.next)
  | .peek => return .char (← CharStream.peek)
  | .handBack c => do CharStream.handBack c; return .done
  | .putBack t => do CharStream.putBack t; return .done
  | .delimited d => return .text (← Rescan.delimited d)
  | .digits => return .text (← Rescan.digits)
  | .line => return .text (← Rescan.line)
  | .word => return .text (← Rescan.word)
  | .unsigned => return .number ((← Rescan.unsigned).map Int.ofNat)
  | .signed => return .number (← Rescan.signed)
  | .boolean => return .truth (← Rescan.boolean)
  | .truth b => return .truth (← Rescan.truth b)
  | .exactly t => return .truth (some (← Rescan.exactly t))
  | .dropBlanks => do Rescan.dropBlanks; return .done
  | .dropBlankLines => do Rescan.dropBlankLines; return .done
  | .remainder => return .text (some (← Rescan.remainder))

/-- What can be done with a buffered source. -/
inductive Step where
  /-- A request to it as a stream. -/
  | ask (request : Request)
  /-- The next character of the source itself, behind the back of the buffer. -/
  | pull
  /-- A look at the state, which changes nothing. -/
  | inspect
deriving DecidableEq, Repr

/-- Performs a step. -/
def Step.perform {σ : Type} [Source σ] : Step → Scan (Buffered σ) Reply
  | .ask request => request.perform
  | .pull => return .char (← Buffered.onSource Source.next)
  | .inspect => return .done

end Rescan
