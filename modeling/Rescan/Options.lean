/-!
# Options of a buffered source

The one thing to be chosen is the capacity of the buffer. Options are exchanged as structured
values: a record with the field `buffer_capacity`, or a list of the fields in order. A field that
is missing has its default.

## Main definitions

* `Options`: the choice, with its default.
* `Value`: structured values, as far as options need to tell them apart.
* `Options.ofValue?`, `Options.render`: reading options from a value and writing them.
-/

namespace Rescan

/-- The capacities that can be chosen are those below this bound. -/
def capacityBound : Nat :=
  UInt64.size

/-- How a buffered source is set up. -/
structure Options where
  /-- The number of characters that may be pending. -/
  capacity : Nat := 8192
deriving DecidableEq, Repr

/-- A structured value. -/
inductive Value where
  | null
  | bool (b : Bool)
  /-- A number written without sign, fraction and exponent. -/
  | natural (n : Nat)
  /-- Any other number. -/
  | number
  | text (t : String)
  | list (items : List Value)
  | record (fields : List (String × Value))
deriving Inhabited

namespace Options

/-- The name of the field. -/
def field : String :=
  "buffer_capacity"

/-- The options with this capacity, if it can be chosen. -/
def ofCapacity? : Value → Option Options
  | .natural n => if n < capacityBound then some { capacity := n } else none
  | _ => none

/-- The options that a value describes. Fields of other names are ignored. -/
def ofValue? : Value → Option Options
  | .record fields =>
    match fields.find? (·.1 == field) with
    | none => some {}
    | some (_, value) => ofCapacity? value
  | .list [] => some {}
  | .list [value] => ofCapacity? value
  | _ => none

/-- The options as the text of a record, without blanks. -/
def render (options : Options) : String :=
  "\x7b\"" ++ field ++ "\":" ++ toString options.capacity ++ "\x7d"

end Options

end Rescan
