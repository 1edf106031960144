import TypeDiagram.Proofs.Discovery
import Mathlib.Data.List.Perm.Basic

/-!
# Queries tell one story

A diagram can be asked about its relations in several ways: for all of them, for those from or to a
type, for one with given ends, for the neighbours of a type, for the types without relations.  Each
query goes through the relations in its own way.  The neighbours are put together from two lists,
with relations from a type to itself taken from the first one only and with repetitions erased; the
relations of the types, type by type, stand in another order than all relations.  This file says
that the answers fit together, whatever number is given for a handle.

## What is here

* `Diagram.mem_neighbours_iff`, `Diagram.nodup_neighbours` and `Diagram.mem_unused_iff_adjacent` —
  what the neighbours and the unused types have to do with the list of relations.  The other queries
  have such lemmas beside their definitions.  No history is needed for any of them.
* `Diagram.WellFormed.perm_relationsFrom` and `Diagram.WellFormed.perm_relationsTo` — **type by
  type, each relation is listed once**.  Here it matters that relations join issued handles, for
  otherwise a relation might belong to no type.
* `Diagram.QueriesAgree` — how the answers fit together, clause by clause.

## Four ways through the relations

`Diagram.relationsFrom` and `Diagram.relationsTo` select from the list of all relations.
`Diagram.findRelation` goes through the relations between two types.  `Diagram.unused` takes one
step along the relations of a type, first forwards and then backwards.  `Diagram.neighbours` takes
such steps both ways at once, and lists what it comes to without repetitions.  For each of these
there is a lemma that says which relations it sees, and the clauses are put together from those
lemmas; none of them is shown by unfolding two queries and comparing what is left.

Handles that were not issued need no case of their own.  No relation of a well-formed diagram
mentions them, so there is nothing to find.  They are not unused either, for only issued handles
are.
-/

set_option autoImplicit false

namespace TypeDiagram
namespace Diagram

variable {d : Diagram} {a b x : Nat} {kind : RelationKind} {r : Relation}

/-! ## Relations by their ends -/

/-- Sorting relations by an end keeps each of them once, if no end is left out. -/
theorem perm_flatMap_filter {relations : List Relation} {handles : List Nat}
    (hrelations : relations.Nodup) (hhandles : handles.Nodup) (ending : Relation → Nat)
    (h : ∀ r ∈ relations, ending r ∈ handles) :
    (handles.flatMap fun x ↦ relations.filter fun r ↦ ending r = x).Perm relations := by
  have hnodup : (handles.flatMap fun x ↦ relations.filter fun r ↦ ending r = x).Nodup := by
    refine List.nodup_flatMap.mpr ⟨fun x _ ↦ hrelations.filter _, hhandles.imp fun hxy r hx hy ↦ ?_⟩
    rw [List.mem_filter, decide_eq_true_eq] at hx hy
    exact hxy (hx.2.symm.trans hy.2)
  refine (List.perm_ext_iff_of_nodup hnodup hrelations).mpr fun r ↦ ?_
  simp only [List.mem_flatMap, List.mem_filter, decide_eq_true_eq]
  exact ⟨fun ⟨_, _, hr, _⟩ ↦ hr, fun hr ↦ ⟨ending r, h r hr, hr, rfl⟩⟩

/-- **Type by type, each relation is listed once**, at the type that it leads away from. -/
theorem WellFormed.perm_relationsFrom (hd : d.WellFormed) :
    (d.handles.flatMap d.relationsFrom).Perm d.relations :=
  perm_flatMap_filter hd.nodup List.nodup_range Relation.source fun r hr ↦
    mem_handles_iff.mpr (hd.source_issued r hr)

/-- **Type by type, each relation is listed once**, at the type that it leads to. -/
theorem WellFormed.perm_relationsTo (hd : d.WellFormed) :
    (d.handles.flatMap d.relationsTo).Perm d.relations :=
  perm_flatMap_filter hd.nodup List.nodup_range Relation.target fun r hr ↦
    mem_handles_iff.mpr (hd.target_issued r hr)

/-! ## Neighbours -/

theorem mem_neighbours_iff_adjacent : b ∈ d.neighbours a ↔ b ∈ d.adjacent a := List.mem_eraseDups

/-- **Neighbours are the types that a relation joins**, in one direction or the other. -/
theorem mem_neighbours_iff :
    b ∈ d.neighbours a ↔ ∃ kind, ⟨a, b, kind⟩ ∈ d.relations ∨ ⟨b, a, kind⟩ ∈ d.relations := by
  rw [mem_neighbours_iff_adjacent, mem_adjacent]
  refine ⟨?_, ?_⟩
  · rintro ⟨⟨source, target, kind⟩, hr, ⟨rfl, rfl⟩ | ⟨rfl, rfl⟩⟩
    · exact ⟨kind, .inl hr⟩
    · exact ⟨kind, .inr hr⟩
  · rintro ⟨kind, hr | hr⟩
    · exact ⟨_, hr, .inl ⟨rfl, rfl⟩⟩
    · exact ⟨_, hr, .inr ⟨rfl, rfl⟩⟩

theorem mem_adjacent_comm : b ∈ d.adjacent a ↔ a ∈ d.adjacent b := by
  simp only [mem_adjacent, or_comm]

/-- The neighbours are the first mentions of what is adjacent. -/
theorem neighbours_eq_firsts (d : Diagram) (a : Nat) :
    d.neighbours a = firsts [] (d.adjacent a) := by
  rw [firsts_eq_eraseDups, neighbours]
  simp

theorem nodup_neighbours (d : Diagram) (a : Nat) : (d.neighbours a).Nodup := by
  rw [neighbours_eq_firsts]
  exact nodup_firsts [] (d.adjacent a)

theorem adjacent_eq_nil_iff :
    d.adjacent x = [] ↔ ∀ r ∈ d.relations, r.source ≠ x ∧ r.target ≠ x := by
  simp only [List.eq_nil_iff_forall_not_mem, mem_adjacent, not_exists, not_and]
  refine ⟨fun h r hr ↦ ⟨?_, ?_⟩, fun h y r hr ↦ ?_⟩
  · exact fun hs ↦ h r.target r hr (.inl ⟨hs, rfl⟩)
  · exact fun ht ↦ h r.source r hr (.inr ⟨rfl, ht⟩)
  · exact fun hends ↦ hends.elim (fun hs ↦ (h r hr).1 hs.1) fun ht ↦ (h r hr).2 ht.2

theorem neighbours_eq_nil_iff : d.neighbours x = [] ↔ d.adjacent x = [] := by
  simp only [List.eq_nil_iff_forall_not_mem, mem_neighbours_iff_adjacent]

/-! ## Unused types -/

theorem pairwise_unused (d : Diagram) : d.unused.Pairwise (· < ·) := List.pairwise_lt_range.filter _

/-- **The unused types are those to which nothing is adjacent.** -/
theorem unused_eq_filter (d : Diagram) :
    d.unused = d.handles.filter fun x ↦ d.adjacent x = [] := by
  refine List.filter_congr fun x _ ↦ ?_
  rw [Bool.eq_iff_iff, Bool.and_eq_true, List.isEmpty_iff, List.isEmpty_iff, decide_eq_true_eq,
    adjacent_eq_nil_iff, successors_eq_nil_iff, predecessors_eq_nil_iff]
  simp [relationsFrom, relationsTo, forall_and]

theorem mem_unused_iff_adjacent : x ∈ d.unused ↔ d.issued x = true ∧ d.adjacent x = [] := by
  rw [unused_eq_filter, List.mem_filter, mem_handles_iff, decide_eq_true_eq]

/-! ## The queries agree -/

/-- The queries of the diagram describe the same relations.  The handles are any numbers, issued or
not. -/
structure QueriesAgree (d : Diagram) : Prop where
  /-- A relation is found if and only if it is among the relations. -/
  found_iff : ∀ a b kind,
    (∃ r, d.findRelation a b kind = some r) ↔ ⟨a, b, kind⟩ ∈ d.relations
  /-- What is found is the relation that was asked for, and it is there once. -/
  found_once : ∀ a b kind r, d.findRelation a b kind = some r →
    r = ⟨a, b, kind⟩ ∧ d.relations.count ⟨a, b, kind⟩ = 1
  /-- A type is a neighbour of another one if and only if a relation leads from one to the other. -/
  neighbour_iff : ∀ a b,
    b ∈ d.neighbours a ↔ ∃ kind, ⟨a, b, kind⟩ ∈ d.relations ∨ ⟨b, a, kind⟩ ∈ d.relations
  /-- So neighbours are neighbours of each other. -/
  neighbour_comm : ∀ a b, b ∈ d.neighbours a ↔ a ∈ d.neighbours b
  /-- And a type is its own neighbour exactly when a relation leads from it to itself. -/
  neighbour_self : ∀ a, a ∈ d.neighbours a ↔ ∃ kind, ⟨a, a, kind⟩ ∈ d.relations
  /-- No neighbour is listed twice. -/
  nodup_neighbours : ∀ a, (d.neighbours a).Nodup
  /-- The relations from a type are those that lead away from it. -/
  from_iff : ∀ a r, r ∈ d.relationsFrom a ↔ r ∈ d.relations ∧ r.source = a
  /-- The relations to a type are those that lead to it. -/
  to_iff : ∀ a r, r ∈ d.relationsTo a ↔ r ∈ d.relations ∧ r.target = a
  /-- The relations from all types, one type after the other, are all relations in some order. -/
  perm_from : (d.handles.flatMap d.relationsFrom).Perm d.relations
  /-- The relations to all types, one type after the other, are all relations in some order. -/
  perm_to : (d.handles.flatMap d.relationsTo).Perm d.relations
  /-- The unused types are listed in ascending order. -/
  unused_ascending : d.unused.Pairwise (· < ·)
  /-- They are the types from and to which no relation leads. -/
  unused_iff_relations : ∀ x,
    x ∈ d.unused ↔ d.issued x = true ∧ d.relationsFrom x = [] ∧ d.relationsTo x = []
  /-- And they are the types without neighbours. -/
  unused_iff_neighbours : ∀ x, x ∈ d.unused ↔ d.issued x = true ∧ d.neighbours x = []

/-- **All queries describe the same relations**, in every diagram that has a history. -/
theorem Reachable.queries_agree (hd : d.Reachable) : d.QueriesAgree := by
  have hwf := hd.wellFormed
  constructor
  case found_iff =>
    intro a b kind
    simp only [findRelation_eq_some_iff, exists_eq_left]
  case found_once =>
    intro a b kind r hr
    obtain ⟨rfl, hmem⟩ := findRelation_eq_some_iff.mp hr
    exact ⟨rfl, List.count_eq_one_of_mem hwf.nodup hmem⟩
  case neighbour_iff => exact fun a b ↦ mem_neighbours_iff
  case neighbour_comm =>
    intro a b
    rw [mem_neighbours_iff_adjacent, mem_neighbours_iff_adjacent, mem_adjacent_comm]
  case neighbour_self =>
    intro a
    simp only [mem_neighbours_iff, or_self]
  case nodup_neighbours => exact d.nodup_neighbours
  case from_iff => exact fun a r ↦ mem_relationsFrom
  case to_iff => exact fun a r ↦ mem_relationsTo
  case perm_from => exact hwf.perm_relationsFrom
  case perm_to => exact hwf.perm_relationsTo
  case unused_ascending => exact d.pairwise_unused
  case unused_iff_relations => exact fun x ↦ mem_unused_iff_relations
  case unused_iff_neighbours =>
    intro x
    rw [mem_unused_iff_adjacent, neighbours_eq_nil_iff]

/-- A tangle with one more type, which no relation touches. -/
theorem queries_agree_tangle :
    let d := (History.tangle.diagram.addDecl (.named "D" "")).2
    d.Reachable ∧
    (d.findRelation 2 2 .encapsulates = some ⟨2, 2, .encapsulates⟩ ∧
      d.relations.count ⟨2, 2, .encapsulates⟩ = 1) ∧
    (d.neighbours 2 = [0, 2, 3, 1] ∧ 2 ∈ d.neighbours 0) ∧
    (d.handles.flatMap d.relationsFrom ≠ d.relations ∧
      (d.handles.flatMap d.relationsFrom).Perm d.relations) ∧
    (4 ∈ d.unused ∧ d.neighbours 4 = []) ∧ d.neighbours 9 = [] := by
  intro d
  have hd : d.Reachable := (History.tangle.wellFormed.addDecl _).reachable
  have h : d.QueriesAgree := hd.queries_agree
  have hfound : d.findRelation 2 2 .encapsulates = some ⟨2, 2, .encapsulates⟩ := by decide +kernel
  have hneighbours : d.neighbours 2 = [0, 2, 3, 1] := by decide +kernel
  have hunused : 4 ∈ d.unused := by decide +kernel
  refine ⟨hd, ⟨hfound, (h.found_once 2 2 .encapsulates _ hfound).2⟩, ⟨hneighbours, ?_⟩,
    ⟨by decide +kernel, h.perm_from⟩, ⟨hunused, ((h.unused_iff_neighbours 4).mp hunused).2⟩,
    by decide +kernel⟩
  exact (h.neighbour_comm 2 0).mp (by simp [hneighbours])

end Diagram
end TypeDiagram
