import TypeDiagram.Decl.Basic
import TypeDiagram.Settings

/-!
# Which types a field mentions

A field mentions types by name: its declared type and, if the settings say so, the arguments of
that type.  The match mode decides which declared types a name stands for.

* By **simple name**, a name stands for every type with that simple name.
* **Package-aware**, a name with a dot in it is a qualified name and stands for the types with that
  qualified name.  A name without a dot stands for a type with that simple name which can be seen
  from where the name is used: the two types share a package, or the using type imports the other
  one or all of its package, or one of the two packages is not known.
-/

set_option autoImplicit false

namespace TypeDiagram

/-- Can `target` be called by its simple name inside `source`? -/
def Decl.sees (source target : Decl) : Bool :=
  source.package = "" || target.package = "" || source.package = target.package ||
    source.imports.any fun name ↦
      name = target.qualifiedName || name = target.package ++ ".*"

/-- Does a name that is used inside `source` stand for `target`? -/
def MatchMode.resolves (mode : MatchMode) (source : Decl) (name : String) (target : Decl) : Bool :=
  match mode with
  | .simpleName => name = target.name
  | .packageAware =>
    if '.' ∈ name.toList then name = target.qualifiedName
    else name = target.name && source.sees target

namespace Settings

/-- The type names in a field that count: its declared type and, if type arguments count, those
as well. -/
def considered (s : Settings) (field : Field) : List String :=
  if s.matchTypeArguments then field.referencedNames else [field.typeName]

/-- Does a field of `source` mention `target`? -/
def mentions (s : Settings) (source target : Decl) : Bool :=
  source.fields.any fun field ↦
    (s.considered field).any fun name ↦ s.matchMode.resolves source name target

end Settings
end TypeDiagram
