/-!
# Outlines

A value with parts can be shown in two layouts: on one line, for a message, or over several lines
with the parts indented, for reading.  An `Outline` is such a value before the choice of layout:
a tree of words, labelled parts, lists and titled records.

* `Outline.inline` separates parts by a comma and a blank.
* `Outline.indented` gives every part a line of its own, four blanks deeper than its parent and
  with a comma after it.

An empty list is `[]` in both.  A record may be left open, which says that it has further parts
that are not shown: it then ends with two dots, to which no comma is added.
-/

set_option autoImplicit false

namespace TypeDiagram
namespace Text

/-- A value with parts, ready to be laid out. -/
inductive Outline where
  /-- Text that is shown as it stands. -/
  | word (text : String)
  /-- A part under its label. -/
  | labelled (label : String) (part : Outline)
  /-- Parts between square brackets. -/
  | list (parts : List Outline)
  /-- Parts between braces after a title.  An `isOpen` record has further parts not shown. -/
  | record (title : String) (parts : List Outline) (isOpen : Bool)

namespace Outline

/-- Texts one after the other, with a comma and a blank between neighbours. -/
def joined : List String → String
  | [] => ""
  | [part] => part
  | part :: next :: rest => part ++ ", " ++ joined (next :: rest)

/-- The mark of an open record, as a list of further parts. -/
def openMark (isOpen : Bool) : List String := if isOpen then [".."] else []

/-! ## One line -/

mutual

/-- The outline on one line. -/
def inline : Outline → String
  | .word text => text
  | .labelled label part => label ++ ": " ++ part.inline
  | .list parts => "[" ++ joined (inlineParts parts) ++ "]"
  | .record title parts isOpen =>
    title ++ " \x7b " ++ joined (inlineParts parts ++ openMark isOpen) ++ " \x7d"

/-- Each of several outlines on one line. -/
def inlineParts : List Outline → List String
  | [] => []
  | part :: rest => part.inline :: inlineParts rest

end

/-! ## Several lines -/

/-- The blanks in front of a line at a nesting depth. -/
def margin (depth : Nat) : String := String.ofList (List.replicate (4 * depth) ' ')

mutual

/-- The outline over several lines, as part of something at nesting depth `depth`.  The first
line carries no margin, for it continues the line of the parent. -/
def indentedAt (depth : Nat) : Outline → String
  | .word text => text
  | .labelled label part => label ++ ": " ++ part.indentedAt depth
  | .list [] => "[]"
  | .list (part :: rest) =>
    "[\n" ++ indentedParts (depth + 1) (part :: rest) ++ margin depth ++ "]"
  | .record title parts isOpen =>
    title ++ " \x7b\n" ++ indentedParts (depth + 1) parts ++
      (if isOpen then margin (depth + 1) ++ "..\n" else "") ++ margin depth ++ "\x7d"

/-- Parts at nesting depth `depth`, each on lines of its own and followed by a comma. -/
def indentedParts (depth : Nat) : List Outline → String
  | [] => ""
  | part :: rest => margin depth ++ part.indentedAt depth ++ ",\n" ++ indentedParts depth rest

end

/-- The outline over several lines. -/
def indented (outline : Outline) : String := outline.indentedAt 0

end Outline
end Text
end TypeDiagram
