import TypeDiagram.Document.Basic

/-!
# Faults of documents

Reading a value from a document either succeeds or stops at the first fault.  A `Fault` says what
is wrong with the part of the document at which reading stopped; `Fault.message` puts it in words.
A fault does not say where in the document it is.
-/

set_option autoImplicit false

namespace TypeDiagram

/-- What was expected at some place in a document. -/
inductive Expectation where
  /-- A text. -/
  | text
  /-- A truth value. -/
  | flag
  /-- A list. -/
  | list
  /-- A record with arbitrary keys. -/
  | dictionary
  /-- A record of the given title, by keys or by position. -/
  | record (title : String)
  /-- The name of a choice, or a record with that name as its only key. -/
  | choice
  /-- Nothing, after the name of a choice that carries no data. -/
  | nothing
deriving DecidableEq

namespace Expectation

/-- How a message speaks of what was expected. -/
def describe : Expectation → String
  | .text => "a string"
  | .flag => "a boolean"
  | .list => "a sequence"
  | .dictionary => "a map"
  | .record title => "struct " ++ title
  | .choice => "string or map"
  | .nothing => "unit"

end Expectation

/-- Why no value can be read from a document. -/
inductive Fault where
  /-- A document of one shape stands where another was expected. -/
  | unexpected (found : Document.Shape) (expected : Expectation)
  /-- A record lacks a field that has no default. -/
  | missing (field : String)
  /-- A positional record ends at `length` elements, before a field that has no default.  The
  record is called `title` and has `size` fields. -/
  | tooFew (length : Nat) (title : String) (size : Nat)
  /-- A positional record has `length` elements, more than there are fields. -/
  | tooMany (length : Nat)
  /-- A name is none of the choices that there are. -/
  | unknownChoice (found : String) (choices : List String)
  /-- A choice is given by a record, but not by one with a single key. -/
  | notSingle

namespace Fault

/-- A name between backquotes. -/
def ticked (name : String) : String := "`" ++ name ++ "`"

/-- Names between backquotes, with a comma and a blank between neighbours. -/
def tickedList : List String → String
  | [] => ""
  | [name] => ticked name
  | name :: next :: rest => ticked name ++ ", " ++ tickedList (next :: rest)

/-- The choices that there are, in words. -/
def choicesText : List String → String
  | [] => "there are no variants"
  | [name] => "expected " ++ ticked name
  | [first, second] => "expected " ++ ticked first ++ " or " ++ ticked second
  | names => "expected one of " ++ tickedList names

/-- A fault in words. -/
def message : Fault → String
  | .unexpected found expected =>
    "invalid type: " ++ found.describe ++ ", expected " ++ expected.describe
  | .missing field => "missing field " ++ ticked field
  | .tooFew length title size =>
    "invalid length " ++ toString length ++ ", expected struct " ++ title ++ " with " ++
      toString size ++ " elements"
  | .tooMany length => "invalid length " ++ toString length ++ ", expected fewer elements in array"
  | .unknownChoice found choices =>
    "unknown variant " ++ ticked found ++ ", " ++ choicesText choices
  | .notSingle => "invalid value: map, expected map with a single key"

end Fault
end TypeDiagram
