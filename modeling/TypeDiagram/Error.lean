import TypeDiagram.Text.Quoted

/-!
# Errors

What can go wrong when a diagram is asked for something, apart from faults of documents: a type is
named that the diagram does not have, or the settings of an inference make no sense.

`Error.message` is for the reader of a message, `Error.outline` for the reader of a trace.
-/

set_option autoImplicit false

namespace TypeDiagram

/-- Why an operation on diagrams fails. -/
inductive Error where
  /-- There is no such type. -/
  | typeNotFound (what : String)
  /-- The settings are refused, for the given reason. -/
  | invalidSettings (reason : String)
deriving DecidableEq

namespace Error

/-- The error of a handle that a diagram has not issued. -/
def unissued (handle : Nat) : Error := .typeNotFound ("#" ++ toString handle)

/-- The error in words. -/
def message : Error → String
  | .typeNotFound what => "Type not found: " ++ what
  | .invalidSettings reason => "Invalid configuration: " ++ reason

/-- The error as a term. -/
def outline : Error → String
  | .typeNotFound what => "TypeNotFound(" ++ Text.quoted what ++ ")"
  | .invalidSettings reason => "InvalidConfig(" ++ Text.quoted reason ++ ")"

end Error
end TypeDiagram
