import TypeDiagram.Error

/-!
# The log

Building a diagram and extracting a part of one leave a record of what was done.  An `Event` is
one entry of that record, as data; `Event.line` is its text, with the level in front.  A
computation that leaves such a record returns a `Logged` value.
-/

set_option autoImplicit false

namespace TypeDiagram

/-- How much attention an event deserves. -/
inductive Level where
  | debug
  | info
  | warn
deriving DecidableEq

/-- The name of a level. -/
def Level.name : Level → String
  | .debug => "DEBUG"
  | .info => "INFO"
  | .warn => "WARN"

/-- Something worth recording. -/
inductive Event where
  /-- Of `total` types, `dropped` were not kept. -/
  | filteredOut (dropped total : Nat)
  /-- A type refers to `count` others. -/
  | encapsulates (qualifiedName : String) (count : Nat)
  /-- A relation could not be added. -/
  | skipped (error : Error)
  /-- A diagram was built, with so many types and relations. -/
  | built (types relations : Nat)
  /-- A part of a diagram was extracted: so many of its types and relations. -/
  | extracted (depth types typesBefore relations relationsBefore : Nat)
deriving DecidableEq

namespace Event

/-- The level of an event. -/
def level : Event → Level
  | .filteredOut .. => .debug
  | .encapsulates .. => .debug
  | .skipped .. => .warn
  | .built .. => .info
  | .extracted .. => .debug

/-- The event in words. -/
def message : Event → String
  | .filteredOut dropped total =>
    "Filtered out " ++ toString dropped ++ " of " ++ toString total ++ " types"
  | .encapsulates qualifiedName count =>
    qualifiedName ++ " encapsulates " ++ toString count ++ " type(s)"
  | .skipped error => "Skipping relation: " ++ error.message
  | .built types relations =>
    "Built type model: " ++ toString types ++ " types, " ++ toString relations ++ " relations"
  | .extracted depth types typesBefore relations relationsBefore =>
    "Extracted neighborhood (depth " ++ toString depth ++ "): " ++ toString types ++ " of " ++
      toString typesBefore ++ " types, " ++ toString relations ++ " of " ++
      toString relationsBefore ++ " relations"

/-- The line of an event in the log. -/
def line (event : Event) : String := event.level.name ++ " " ++ event.message

end Event

/-- A value together with the events on the way to it. -/
structure Logged (α : Type) where
  value : α
  /-- The events, in the order in which they happened. -/
  log : List Event

end TypeDiagram
