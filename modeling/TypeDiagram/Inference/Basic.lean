import TypeDiagram.Diagram.Basic
import TypeDiagram.Inference.Filter
import TypeDiagram.Inference.Matching
import TypeDiagram.Log

/-!
# Inferring a diagram

An inference turns a list of declared types into a diagram.  It consists of settings and filters,
and works in three stages.

1. **Selection.**  The types that carry every required annotation and pass every filter are kept,
   in their order; the others take no further part.
2. **Encapsulation.**  For each kept type, the other kept types that a field of it mentions are
   collected, in order.
3. **Relation.**  One relation is added to the diagram for each pair found.

The log tells how many types were dropped, if any; how many types each type encapsulates, if any;
and the size of the diagram in the end.
-/

set_option autoImplicit false

namespace TypeDiagram

/-- Settings and filters. -/
structure Inference where
  settings : Settings := {}
  /-- The filters in the order in which they were given. -/
  filters : List Filter := []

namespace Inference

instance : Inhabited Inference := ⟨{}⟩

/-- The inference with the given settings and no filters, if the settings are acceptable. -/
def withSettings (settings : Settings) : Except Error Inference := do
  settings.validate
  return { settings := settings }

/-! ## Filters -/

/-- Add a filter. -/
def filter (inference : Inference) (f : Filter) : Inference :=
  { inference with filters := inference.filters ++ [f] }

/-- Keep only types with an annotation of the given name. -/
def requireTag (inference : Inference) (typeName : String) : Inference :=
  inference.filter (.tagged typeName)

/-- Keep only types that satisfy a condition.  The filter is labelled by its number. -/
def require (inference : Inference) (accepts : Decl → Bool) : Inference :=
  inference.filter ⟨"custom#" ++ toString inference.filters.length, accepts⟩

/-- Does the inference keep a type? -/
def keeps (inference : Inference) (decl : Decl) : Bool :=
  (inference.settings.requiredTags.all fun name ↦ decl.hasTag name) &&
    inference.filters.all fun f ↦ f.accepts decl

/-! ## Encapsulation -/

/-- A type that encapsulates others, with their handles. -/
structure Encapsulation where
  source : Decl
  handle : Nat
  targets : List Nat

/-- The positions of the types that the type at position `handle` mentions, itself left out. -/
def targets (settings : Settings) (decls : List Decl) (source : Decl) (handle : Nat) : List Nat :=
  (decls.zipIdx.filter fun target ↦
    target.2 ≠ handle && settings.mentions source target.1).map fun target ↦ target.2

/-- What each of the types encapsulates, for those that encapsulate something. -/
def encapsulations (settings : Settings) (decls : List Decl) : List Encapsulation :=
  (decls.zipIdx.map fun source ↦
    ⟨source.1, source.2, targets settings decls source.1 source.2⟩).filter
      fun encapsulation ↦ !encapsulation.targets.isEmpty

namespace Encapsulation

/-- The event that reports an encapsulation. -/
def event (e : Encapsulation) : Event := .encapsulates e.source.qualifiedName e.targets.length

/-- The relations of an encapsulation. -/
def relations (e : Encapsulation) : List Relation :=
  e.targets.map fun target ↦ ⟨e.handle, target, .encapsulates⟩

end Encapsulation

/-! ## Building -/

/-- Add a relation to a diagram.  A relation that is refused is reported and left out. -/
def connect (d : Logged Diagram) (r : Relation) : Logged Diagram :=
  match d.value.addRelation r with
  | .ok value => { d with value := value }
  | .error error => { d with log := d.log ++ [.skipped error] }

/-- Build the diagram of the given types. -/
def build (inference : Inference) (decls : List Decl) : Logged Diagram :=
  let kept := decls.filter inference.keeps
  let found := encapsulations inference.settings kept
  let related := (found.flatMap Encapsulation.relations).foldl connect ⟨Diagram.ofDecls kept, []⟩
  { value := related.value
    log :=
      (if kept.length < decls.length then
        [.filteredOut (decls.length - kept.length) decls.length] else []) ++
        found.map Encapsulation.event ++ related.log ++
        [.built related.value.decls.length related.value.relations.length] }

/-! ## Outline -/

/-- The outline of an inference. -/
def outline (inference : Inference) : Text.Outline :=
  .record "ModelBuilder"
    [.labelled "config" inference.settings.outline,
     .labelled "filters" (.list (inference.filters.map Filter.outline))]
    false

end Inference
end TypeDiagram
