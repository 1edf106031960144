/-!
# Characters that show nothing

Two questions about text come up in this library, and both are answered from a table of code
points.

* **Is a name blank?**  A required annotation has to be named by something other than white space.
  White space here is the `White_Space` property of Unicode, 25 code points in all, so that a name
  made of no-break or ideographic spaces is as blank as one made of ordinary ones.
* **Would a character be invisible in a quoted text?**  Controls, format characters, private-use
  characters and every blank but the ordinary space are written as escapes by `Text.quoted`.

A table is a list of inclusive ranges in ascending order, and membership is a search through it.

The second table is not the whole of what cannot be seen.  Combining marks, such as the acute accent
at code point `0x301`, have a shape but none of their own, and code points that are not assigned to
a character have no shape at all.  Neither are in the tables, so `Text.quoted` writes them as they
stand.  Nothing but the wording of a message depends on this: whether a name is blank is a question
to the first table alone.
-/

set_option autoImplicit false

namespace TypeDiagram
namespace Text

/-- A set of characters, given by inclusive ranges of code points. -/
abbrev CharTable := List (Nat × Nat)

/-- A character is in a table when its code point is in one of the ranges. -/
def CharTable.contains (table : CharTable) (c : Char) : Bool :=
  table.any fun range ↦ decide (range.1 ≤ c.toNat ∧ c.toNat ≤ range.2)

/-! ## The tables -/

/-- White space: the code points with the `White_Space` property. -/
def blankTable : CharTable :=
  [(0x0009, 0x000d), (0x0020, 0x0020), (0x0085, 0x0085), (0x00a0, 0x00a0), (0x1680, 0x1680),
   (0x2000, 0x200a), (0x2028, 0x2029), (0x202f, 0x202f), (0x205f, 0x205f), (0x3000, 0x3000)]

/-- Control characters: the general category `Cc`. -/
def controlTable : CharTable :=
  [(0x0000, 0x001f), (0x007f, 0x009f)]

/-- Format characters, the general category `Cf`, which steer layout and have no shape. -/
def formatTable : CharTable :=
  [(0x00ad, 0x00ad), (0x0600, 0x0605), (0x061c, 0x061c), (0x06dd, 0x06dd), (0x070f, 0x070f),
   (0x0890, 0x0891), (0x08e2, 0x08e2), (0x180e, 0x180e), (0x200b, 0x200f), (0x202a, 0x202e),
   (0x2060, 0x2064), (0x2066, 0x206f), (0xfeff, 0xfeff), (0xfff9, 0xfffb), (0x110bd, 0x110bd),
   (0x110cd, 0x110cd), (0x13430, 0x1343f), (0x1bca0, 0x1bca3), (0x1d173, 0x1d17a),
   (0xe0001, 0xe0001), (0xe0020, 0xe007f)]

/-- Private-use characters, the general category `Co`, whose shape nobody else knows. -/
def privateTable : CharTable :=
  [(0xe000, 0xf8ff), (0xf0000, 0xffffd), (0x100000, 0x10fffd)]

/-! ## Blank text -/

/-- Is this character white space? -/
def isBlankChar (c : Char) : Bool := blankTable.contains c

/-- Does this text hold nothing but white space?  The empty text does. -/
def isBlank (s : String) : Bool := s.toList.all isBlankChar

/-- A text is blank exactly when each of its characters is white space. -/
theorem isBlank_iff {s : String} : isBlank s = true ↔ ∀ c ∈ s.toList, isBlankChar c = true := by
  simp [isBlank]

/-! ## Invisible characters -/

/-- Would this character leave no mark of its own on the page?  The ordinary space is the one
blank that readers expect inside a text, so it counts as visible. -/
def isInvisible (c : Char) : Bool :=
  c != ' ' && (controlTable.contains c || blankTable.contains c || formatTable.contains c ||
    privateTable.contains c)

end Text
end TypeDiagram
