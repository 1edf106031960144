import TypeDiagram.Diagram.Basic

/-!
# Neighbours

Two types are neighbours when a relation joins them, whichever way it leads.  The neighbours of a
type are listed in a fixed order, and every search through a diagram follows it:

1. first the targets of the relations that lead away from the type, the latest relation first;
2. then the sources of the relations that lead to it, again the latest first.

A relation from a type to itself counts among the first and is left out of the second, so that it
names the type once.  `Diagram.adjacent` lists a neighbour once for each relation;
`Diagram.neighbours` keeps the first mention only.
-/

set_option autoImplicit false

namespace TypeDiagram
namespace Diagram

/-- The types at the other ends of the relations of a type, once for each relation. -/
def adjacent (d : Diagram) (handle : Nat) : List Nat :=
  d.successors handle ++ (d.predecessors handle).filter fun other ↦ other ≠ handle

/-- The neighbours of a type, each of them once. -/
def neighbours (d : Diagram) (handle : Nat) : List Nat := (d.adjacent handle).eraseDups

/-- The handles that relations mention, once for each mention. -/
def endpoints (d : Diagram) : List Nat :=
  d.relations.flatMap fun r ↦ [r.source, r.target]

/-- **A type is adjacent to another exactly when a relation joins them**, in one direction or the
other. -/
theorem mem_adjacent {d : Diagram} {a b : Nat} :
    b ∈ d.adjacent a ↔
      ∃ r ∈ d.relations, (r.source = a ∧ r.target = b) ∨ (r.source = b ∧ r.target = a) := by
  rw [adjacent, List.mem_append, List.mem_filter, mem_successors, mem_predecessors,
    decide_eq_true_eq]
  constructor
  · rintro (⟨r, hr, hends⟩ | ⟨⟨r, hr, hends⟩, -⟩)
    · exact ⟨r, hr, .inl hends⟩
    · exact ⟨r, hr, .inr hends⟩
  · rintro ⟨r, hr, hends | ⟨hs, ht⟩⟩
    · exact .inl ⟨r, hr, hends⟩
    · by_cases hab : b = a
      · exact .inl ⟨r, hr, hs.trans hab, ht.trans hab.symm⟩
      · exact .inr ⟨⟨r, hr, hs, ht⟩, hab⟩

/-- What is adjacent to a type is mentioned by a relation. -/
theorem mem_endpoints_of_mem_adjacent {d : Diagram} {a b : Nat} (h : b ∈ d.adjacent a) :
    b ∈ d.endpoints := by
  obtain ⟨r, hr, hab⟩ := mem_adjacent.mp h
  refine List.mem_flatMap.mpr ⟨r, hr, ?_⟩
  rcases hab with ⟨-, hb⟩ | ⟨hb, -⟩
  · exact List.mem_cons_of_mem _ (List.mem_singleton.mpr hb.symm)
  · exact hb ▸ List.mem_cons_self

end Diagram
end TypeDiagram
