import TypeDiagram.Decimal.Shortest
import TypeDiagram.Dictionary
import TypeDiagram.Text.Quoted

/-!
# Documents

A document is a tree of plain data: the form in which descriptions of types come in and go out.
`TypeDiagram.Codec` says how the values of this library are read from documents and written to
them.

The entries of a record stand in the order in which a reader visits them.  `Document.object`
makes a record whose keys ascend, whatever order they are given in; every record that is written
or that comes from a text is of this kind, so the first fault that a reader meets does not depend
on how the record was typed.

A `Shape` is what remains of a document when only its kind is of interest, together with its
content where that is a single value.  It is what a message says about a document that was not
what it should have been.
-/

set_option autoImplicit false

namespace TypeDiagram

/-- Plain data. -/
inductive Document where
  /-- Nothing. -/
  | null
  /-- A truth value. -/
  | flag (value : Bool)
  /-- A number written without a fraction and without an exponent. -/
  | integer (value : Int)
  /-- Any other number. -/
  | real (value : Float)
  /-- A text. -/
  | text (value : String)
  /-- Documents one after the other. -/
  | list (items : List Document)
  /-- Documents under keys. -/
  | record (entries : List (String × Document))
deriving Inhabited

namespace Document

/-- The record with the given entries in ascending order of their keys.  Of several entries with
the same key the last one counts. -/
def object (entries : List (String × Document)) : Document :=
  .record (Dictionary.ofList entries).bindings

/-! ## Shapes -/

/-- The kind of a document, with its content where that is a single value. -/
inductive Shape where
  | null
  | flag (value : Bool)
  | integer (value : Int)
  | real (value : Float)
  | text (value : String)
  | list
  | record

/-- The shape of a document. -/
def shape : Document → Shape
  | .null => .null
  | .flag value => .flag value
  | .integer value => .integer value
  | .real value => .real value
  | .text value => .text value
  | .list _ => .list
  | .record _ => .record

/-- How a message speaks of a document of this shape. -/
def Shape.describe : Shape → String
  | .null => "null"
  | .flag true => "boolean `true`"
  | .flag false => "boolean `false`"
  | .integer value => "integer `" ++ toString value ++ "`"
  | .real value => "floating point `" ++ realText value ++ "`"
  | .text value => "string " ++ Text.quoted value
  | .list => "sequence"
  | .record => "map"

end Document
end TypeDiagram
