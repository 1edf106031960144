import TypeDiagram.Decl.Basic
import TypeDiagram.Text.Outline
import TypeDiagram.Text.Quoted

/-!
# Filters

A filter decides which declared types take part in a diagram.  It is a condition with a label; the
label is what an outline shows of it, since a condition cannot be shown.

A condition is a function of the declared type and of nothing else.  Asked twice about a type it
answers twice the same, equal types get equal answers, and to ask changes nothing and cannot fail.
This is an assumption about the conditions that users write, and all that is said about building
rests on it: conditions that count how often they are asked, or that look at the clock, are not
filters in the sense of this library.
-/

set_option autoImplicit false

namespace TypeDiagram

/-- A labelled condition on declared types. -/
structure Filter where
  /-- What the filter is called in outlines. -/
  label : String
  /-- The condition. -/
  accepts : Decl → Bool

namespace Filter

/-- The filter that accepts the types with an annotation of the given name. -/
def tagged (typeName : String) : Filter := ⟨"@" ++ typeName, fun d ↦ d.hasTag typeName⟩

/-- The outline of a filter.  It is open, because the condition is not shown. -/
def outline (f : Filter) : Text.Outline :=
  .record "TypeFilter" [.labelled "label" (.word (Text.quoted f.label))] true

end Filter
end TypeDiagram
