import TypeDiagram.Proofs.Locality
import TypeDiagram.Proofs.Renaming

/-!
# The order of the declarations does not matter

An inference gets its types in some order, and everything it does follows that order: which handle a
type has, in which turn it is compared with the others, and where a relation stands in the list.
This file says that none of this decides *whether* two types are related.

Types have to be told apart by their positions.  Two of them may agree in everything, and then no
look at the types themselves says which is which in another order.  So the statements below speak of
positions in the list that the inference is given, and of the permutation that leads from one list
to the other.

## What is here

* `Inference.positions` — the positions of the types that are kept.  The place of a position among
  these is the handle that its type gets, `Inference.handleAt`.
* `Inference.mem_relations_build` and `Inference.mem_unused_build` — the relations and the unused
  types of the built diagram, as conditions on positions in the list that was given.
* `Settings.relates_rearrange` — two positions are related as they are after the permutation.

## Handles and positions

A diagram is built from the kept types, so the handle of a type counts the kept types before it, and
not all types before it.  A permutation of the given types carries kept positions to kept positions,
but it carries handles to handles in no simple way.  So the proof goes by way of `Inference.whole`,
the diagram on all given types, where handles are positions.  The built diagram is the restriction
of that one to the kept positions (`Inference.build_eq_restrict`), and restricting says what the
handles are.

The lists of relations are not compared as lists.  In both diagrams they stand in the order of the
handles, and this puts the types in different orders.
-/

set_option autoImplicit false

namespace TypeDiagram

/-! ## Positions of types -/

namespace Inference

open Diagram

/-- The positions of the types that the inference keeps, in order. -/
def positions (inference : Inference) (decls : List Decl) : List Nat :=
  (List.range decls.length).filter fun i ↦ decls[i]?.any inference.keeps

/-- The handle that the type at a kept position gets: the place of the position among those. -/
def handleAt (inference : Inference) (decls : List Decl) (i : Nat) : Nat :=
  (inference.positions decls).idxOf i

variable {inference : Inference} {decls : List Decl}

theorem mem_positions_iff {i : Nat} :
    i ∈ inference.positions decls ↔ ∃ decl, decls[i]? = some decl ∧ inference.Keeps decl := by
  rw [positions, List.mem_filter, List.mem_range, Option.any_eq_true]
  simp only [keeps_iff]
  refine ⟨fun h ↦ h.2, fun ⟨decl, hdecl, hkeeps⟩ ↦ ⟨?_, decl, hdecl, hkeeps⟩⟩
  exact (List.getElem?_eq_some_iff.mp hdecl).1

theorem lt_of_mem_positions {i : Nat} (hi : i ∈ inference.positions decls) : i < decls.length :=
  List.mem_range.mp (List.mem_filter.mp hi).1

/-- All types and all relations that are asked for among them, whether the types are kept or not. -/
def whole (inference : Inference) (decls : List Decl) : Diagram :=
  ⟨decls, inference.settings.relations decls⟩

theorem selection_positions (inference : Inference) (decls : List Decl) :
    (inference.whole decls).Selection (inference.positions decls) :=
  selection_handlesWhere _ inference.keeps

/-- **The built diagram is the part of the whole on the positions that are kept.** -/
theorem build_eq_restrict (inference : Inference) (decls : List Decl) :
    (inference.build decls).value =
      (inference.whole decls).restrict (inference.positions decls) := by
  have hwhole : (inference.whole decls).InferredBy inference.settings := rfl
  have hpart := hwhole.restrict (inference.selection_positions decls)
    (pairwise_handlesWhere (inference.whole decls) inference.keeps)
  have hdecls : ((inference.whole decls).restrict (inference.positions decls)).decls =
      decls.filter inference.keeps :=
    decls_restrict_handlesWhere (inference.whole decls) inference.keeps
  have hkept : decls.filter inference.keeps = decls.filter fun decl ↦ inference.Keeps decl :=
    List.filter_congr fun decl _ ↦ by rw [Bool.eq_iff_iff, keeps_iff, decide_eq_true_eq]
  rw [hpart.eq_mk, hdecls, hkept, build_value]

theorem idxOf?_positions {i : Nat} (hi : i ∈ inference.positions decls) :
    (inference.positions decls).idxOf? i = some (inference.handleAt decls i) :=
  idxOf?_eq_some_iff_mem.mpr ⟨hi, rfl⟩

/-- The handles of the built diagram are the places of the kept positions. -/
theorem handles_build (inference : Inference) (decls : List Decl) :
    (inference.build decls).value.handles =
      (inference.positions decls).map (inference.handleAt decls) := by
  have h := inference.selection_positions decls
  have hplaces := List.filterMap_eq_map_iff_forall_eq_some.mpr
    fun i (hi : i ∈ inference.positions decls) ↦ idxOf?_positions hi
  rw [handles, build_eq_restrict, h.length_restrict, ← hplaces,
    filterMap_idxOf?_of_isPrefix h.nodup List.prefix_rfl]

/-- The type at a kept position has its place as its handle. -/
theorem decl?_build {i : Nat} (hi : i ∈ inference.positions decls) :
    (inference.build decls).value.decl? (inference.handleAt decls i) = decls[i]? := by
  rw [build_eq_restrict, (inference.selection_positions decls).decl?_restrict (idxOf?_positions hi)]
  rfl

/-- **Two kept positions are related in the built diagram if the settings relate them.** -/
theorem mem_relations_build {i j : Nat} (hi : i ∈ inference.positions decls)
    (hj : j ∈ inference.positions decls) {kind : RelationKind} :
    ⟨inference.handleAt decls i, inference.handleAt decls j, kind⟩ ∈
        (inference.build decls).value.relations ↔
      inference.settings.Relates decls i j ∧ kind = .encapsulates := by
  have hplaces : (Relation.mk i j kind).renumber (inference.positions decls) =
      some ⟨inference.handleAt decls i, inference.handleAt decls j, kind⟩ :=
    Relation.renumber_eq_some_iff.mpr ⟨idxOf?_positions hi, idxOf?_positions hj, rfl⟩
  rw [build_eq_restrict, mem_relations_restrict_of_renumber hplaces]
  exact Settings.mem_relations_iff

/-- Every relation of the built diagram leads from one kept position to another. -/
theorem exists_positions_of_mem_relations_build {r : Relation}
    (hr : r ∈ (inference.build decls).value.relations) :
    ∃ i ∈ inference.positions decls, ∃ j ∈ inference.positions decls,
      inference.settings.Relates decls i j ∧
        inference.handleAt decls i = r.source ∧
        inference.handleAt decls j = r.target := by
  have hplace : ∀ x, (inference.build decls).value.issued x = true →
      ∃ i ∈ inference.positions decls, inference.handleAt decls i = x := fun x hx ↦ by
    rwa [← mem_handles_iff, handles_build, List.mem_map] at hx
  have hbuilt := wellFormed_build inference decls
  obtain ⟨i, hi, hsource⟩ := hplace _ (hbuilt.source_issued r hr)
  obtain ⟨j, hj, htarget⟩ := hplace _ (hbuilt.target_issued r hr)
  have hrelation : ⟨r.source, r.target, r.kind⟩ ∈ (inference.build decls).value.relations := hr
  rw [← hsource, ← htarget, mem_relations_build hi hj] at hrelation
  exact ⟨i, hi, j, hj, hrelation.1, hsource, htarget⟩

/-- **A kept position is unused if it is related to no other one**, in either direction. -/
theorem mem_unused_build {i : Nat} (hi : i ∈ inference.positions decls) :
    inference.handleAt decls i ∈ (inference.build decls).value.unused ↔
      ∀ j ∈ inference.positions decls, ¬inference.settings.Relates decls i j ∧
        ¬inference.settings.Relates decls j i := by
  rw [mem_unused_iff]
  refine ⟨fun ⟨_, hfree⟩ j hj ↦ ⟨fun h ↦ ?_, fun h ↦ ?_⟩, fun h ↦ ⟨?_, fun r hr ↦ ?_⟩⟩
  · exact (hfree _ ((mem_relations_build hi hj).mpr ⟨h, rfl⟩)).1 rfl
  · exact (hfree _ ((mem_relations_build hj hi).mpr ⟨h, rfl⟩)).2 rfl
  · rw [← mem_handles_iff, handles_build]
    exact List.mem_map_of_mem hi
  · obtain ⟨j, hj, k, hk, hjk, hsource, htarget⟩ := exists_positions_of_mem_relations_build hr
    refine ⟨fun hir ↦ ?_, fun hir ↦ ?_⟩
    · rw [(List.idxOf_inj hj).mp (hsource.trans hir)] at hjk
      exact (h k hk).1 hjk
    · rw [(List.idxOf_inj hk).mp (htarget.trans hir)] at hjk
      exact (h j hj).2 hjk

end Inference

/-! ## Positions in another order -/

variable {decls : List Decl} (π : Equiv.Perm (Fin decls.length))

/-- **Two positions are related as they are after a permutation.** -/
theorem Settings.relates_rearrange (s : Settings) (i j : Fin decls.length) :
    s.Relates (rearrange decls π) (π i) (π j) ↔ s.Relates decls i j := by
  have hne : ((π i : Fin _) : Nat) = π j ↔ (i : Nat) = j := by
    rw [Fin.val_inj, π.injective.eq_iff, Fin.val_inj]
  rw [Relates, Relates, getElem?_rearrange, getElem?_rearrange, ne_eq, ne_eq, hne]

namespace Inference

/-- Whether a type is kept does not depend on its position. -/
theorem mem_positions_rearrange (inference : Inference) (i : Fin decls.length) :
    (π i : Nat) ∈ inference.positions (rearrange decls π) ↔
      (i : Nat) ∈ inference.positions decls := by
  rw [mem_positions_iff, mem_positions_iff, getElem?_rearrange]

/-- A statement about all kept positions of the other list is one about those of the list. -/
theorem forall_positions_rearrange (inference : Inference) {P : Nat → Prop} :
    (∀ k ∈ inference.positions (rearrange decls π), P k) ↔
      ∀ j : Fin decls.length, (j : Nat) ∈ inference.positions decls → P (π j) := by
  refine ⟨fun h j hj ↦ h _ ((inference.mem_positions_rearrange π j).mpr hj), fun h k hk ↦ ?_⟩
  have hlt : k < decls.length := length_rearrange π ▸ lt_of_mem_positions hk
  obtain ⟨j, hj⟩ := π.surjective ⟨k, hlt⟩
  have hval : (π j : Nat) = k := congrArg Fin.val hj
  rw [← hval] at hk ⊢
  exact h j ((inference.mem_positions_rearrange π j).mp hk)

/-- **Inference does not depend on the order of the types.**  Build a diagram from a list of types,
and another one from the same types in an order that a permutation of the positions gives.  The
types at the same positions are kept, and each diagram holds exactly these types: the handle of a
type is the place of its position among those that are kept, in either list.  Two kept positions are
related in the one diagram exactly when the permuted positions are related in the other, by a
relation of the same kind, and a kept position is unused in the one exactly when the permuted one
is unused in the other.  Positions tell types apart that are equal, or have the same name. -/
theorem build_rearrange (inference : Inference) (decls : List Decl)
    (π : Equiv.Perm (Fin decls.length)) :
    let built := (inference.build decls).value
    let rebuilt := (inference.build (rearrange decls π)).value
    let kept := inference.positions decls
    let kept' := inference.positions (rearrange decls π)
    let handle := inference.handleAt decls
    let handle' := inference.handleAt (rearrange decls π)
    (∀ i : Fin decls.length, ((i : Nat) ∈ kept ↔ inference.Keeps decls[i]) ∧
      ((π i : Nat) ∈ kept' ↔ (i : Nat) ∈ kept)) ∧
    (built.handles = kept.map handle ∧ rebuilt.handles = kept'.map handle') ∧
    ∀ i : Fin decls.length, (i : Nat) ∈ kept →
      (built.decl? (handle i) = some decls[i] ∧
        rebuilt.decl? (handle' (π i)) = some decls[i]) ∧
      (∀ j : Fin decls.length, (j : Nat) ∈ kept → ∀ kind,
        ⟨handle i, handle j, kind⟩ ∈ built.relations ↔
          ⟨handle' (π i), handle' (π j), kind⟩ ∈ rebuilt.relations) ∧
      (handle i ∈ built.unused ↔ handle' (π i) ∈ rebuilt.unused) := by
  intro built rebuilt kept kept' handle handle'
  have hkept := inference.mem_positions_rearrange π
  have hrelates := inference.settings.relates_rearrange π
  refine ⟨fun i ↦ ⟨?_, hkept i⟩, ⟨inference.handles_build decls, inference.handles_build _⟩,
    fun i hi ↦ ⟨⟨?_, ?_⟩, fun j hj kind ↦ ?_, ?_⟩⟩
  · rw [mem_positions_iff]
    simp
  · rw [decl?_build hi]
    exact List.getElem?_eq_getElem i.isLt
  · rw [decl?_build ((hkept i).mpr hi), getElem?_rearrange]
    exact List.getElem?_eq_getElem i.isLt
  · rw [mem_relations_build hi hj, mem_relations_build ((hkept i).mpr hi) ((hkept j).mpr hj),
      hrelates]
  · rw [mem_unused_build hi, mem_unused_build ((hkept i).mpr hi), forall_positions_rearrange]
    simp only [hrelates]
    exact ⟨fun h j ↦ h j, fun h j hj ↦ h ⟨j, lt_of_mem_positions hj⟩ hj⟩

theorem build_rearrange_twins :
    let inference : Inference := ({} : Inference).require fun decl ↦ decl.package = "app"
    let twin := (Decl.named "Node" "app").withField (.named "next" "Node")
    let decls : List Decl :=
      [twin, .named "Helper" "lib", .named "Alone" "app", twin,
        (Decl.named "List" "app").withField (.named "head" "Node")]
    let first : Fin decls.length := ⟨0, by decide⟩
    let dropped : Fin decls.length := ⟨1, by decide⟩
    let alone : Fin decls.length := ⟨2, by decide⟩
    let last : Fin decls.length := ⟨4, by decide⟩
    let π : Equiv.Perm (Fin decls.length) :=
      (Equiv.swap first last).trans (Equiv.swap dropped alone)
    let built := (inference.build decls).value
    let rebuilt := (inference.build (rearrange decls π)).value
    let kept := inference.positions decls
    let kept' := inference.positions (rearrange decls π)
    (kept = [0, 2, 3, 4] ∧ kept' = [0, 1, 3, 4]) ∧ rebuilt.relations ≠ built.relations ∧
    ((last : Nat) ∈ kept ∧ (first : Nat) ∈ kept ∧ ⟨3, 0, .encapsulates⟩ ∈ built.relations ∧
      ⟨0, 3, .encapsulates⟩ ∈ rebuilt.relations) ∧
    ((alone : Nat) ∈ kept ∧ 1 ∈ built.unused ∧ 1 ∈ rebuilt.unused) := by
  intro inference twin decls first dropped alone last π built rebuilt kept kept'
  have hlast : (last : Nat) ∈ kept := by decide +kernel
  have hfirst : (first : Nat) ∈ kept := by decide +kernel
  have halone : (alone : Nat) ∈ kept := by decide +kernel
  obtain ⟨-, -, hcorresponds⟩ := build_rearrange inference decls π
  obtain ⟨-, hrelations, -⟩ := hcorresponds last hlast
  obtain ⟨-, -, hunusedIff⟩ := hcorresponds alone halone
  have hrelation : ⟨3, 0, .encapsulates⟩ ∈ built.relations := by decide +kernel
  have hunused : 1 ∈ built.unused := by decide +kernel
  refine ⟨⟨by decide +kernel, by decide +kernel⟩, by decide +kernel,
    ⟨hlast, hfirst, hrelation, ?_⟩, ⟨halone, hunused, ?_⟩⟩
  · exact (hrelations first hfirst .encapsulates).mp hrelation
  · exact hunusedIff.mp hunused

end Inference
end TypeDiagram
