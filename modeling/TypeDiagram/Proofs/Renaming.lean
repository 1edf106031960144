import TypeDiagram.Proofs.Induced
import Mathlib.Logic.Equiv.Basic

/-!
# Handles are only names

The handle of a type is its position, so the same types and relations can be numbered in many ways.
This file compares two diagrams that differ in the numbering alone.  Around the same type they have
the same neighbourhood: not just the same up to a new numbering, but equal, with the same handles in
it.  For a neighbourhood numbers its types in the order in which they are found, and that order
comes from the order of the relations, in which the numbering plays no part.

## What is here

* `Diagram.Renames f d e` — the diagram `e` has the types of `d` under the handles that `f` gives
  them, and the relations of `d` between these handles.
* One transport lemma for each thing that an extraction reads: `Renames.adjacent` for the neighbours
  of a type, `Renames.layers` for the layers of a search, `Renames.restrict` for the types and the
  relations that are copied.  `Renames.extract` puts them together.
* `rearrange` and `Diagram.rearrange` — a list, and a diagram, in another order.  Each permutation
  of the handles gives a renaming (`Diagram.renames_rearrange`).

A renaming may lead into a diagram that has further types, as long as no relation touches them.  So
it also covers the case that a type is added (`Diagram.renames_addDecl`).

## What has to be kept

Renaming keeps the list of relations, one by one, and gives new names to their ends.  If the list
were put in another order, for instance in that of the new handles, the neighbours of a type would
be found in another order, and the neighbourhoods would agree up to a renaming only.

Different handles need different names, since otherwise a search would take two types for one.
Nothing else is asked of `f`; it need not keep the order of the handles.  This is why
`Diagram.focus` is not compared here: the types of a name are its seeds in the order of their
handles, and another numbering may put them in another order.
-/

set_option autoImplicit false

namespace TypeDiagram

/-! ## Moving handles in lists -/

section Moving

variable {f : Nat → Nat}

theorem map_firsts (hf : Function.Injective f) (known handles : List Nat) :
    (firsts known handles).map f = firsts (known.map f) (handles.map f) := by
  have h := filterMap_firsts (g := some ∘ f)
    (fun x y i hx hy ↦ hf ((Option.some.inj hx).trans (Option.some.inj hy).symm)) known handles
  rwa [List.filterMap_eq_map] at h

theorem idxOf?_map (hf : Function.Injective f) (order : List Nat) (x : Nat) :
    (order.map f).idxOf? (f x) = order.idxOf? x := by
  induction order with
  | nil => rfl
  | cons y rest ih => simp only [List.map_cons, List.idxOf?_cons, beq_iff_eq, hf.eq_iff, ih]

theorem Relation.along_injective (hf : Function.Injective f) :
    Function.Injective (Relation.along f) := by
  intro r s h
  rw [along, along, Relation.mk.injEq] at h
  cases r
  cases s
  rw [Relation.mk.injEq]
  exact ⟨hf h.1, hf h.2.1, h.2.2⟩

/-- The places of the moved handles are the places of the handles. -/
theorem Relation.renumber_along (hf : Function.Injective f) (order : List Nat) (r : Relation) :
    (r.along f).renumber (order.map f) = r.renumber order := by
  simp only [renumber, along, idxOf?_map hf]

end Moving

namespace Diagram

/-! ## Renamings -/

/-- The second diagram has the types of the first one, under the handles that `f` gives them, and
its relations, between these handles.  It may have further types, which no relation touches. -/
structure Renames (f : Nat → Nat) (d e : Diagram) : Prop where
  /-- No two handles get the same name. -/
  injective : Function.Injective f
  /-- A type keeps its data. -/
  decl : ∀ x, d.issued x = true → e.decl? (f x) = d.decl? x
  /-- The relations stand in the same order. -/
  relations : e.relations = d.relations.map (Relation.along f)

namespace Renames

variable {f : Nat → Nat} {d e : Diagram}

theorem issued (h : Renames f d e) {x : Nat} (hx : d.issued x = true) : e.issued (f x) = true := by
  have hlt : x < d.decls.length := of_decide_eq_true hx
  have hdecl : e.decl? (f x) = some d.decls[x] :=
    (h.decl x hx).trans (List.getElem?_eq_getElem hlt)
  exact decide_eq_true (List.getElem?_eq_some_iff.mp hdecl).1

theorem wellFormed (h : Renames f d e) (hd : d.WellFormed) : e.WellFormed := by
  refine ⟨fun s hs ↦ ?_, fun s hs ↦ ?_, ?_⟩
  · rw [h.relations] at hs
    obtain ⟨r, hr, rfl⟩ := List.mem_map.mp hs
    exact h.issued (hd.source_issued r hr)
  · rw [h.relations] at hs
    obtain ⟨r, hr, rfl⟩ := List.mem_map.mp hs
    exact h.issued (hd.target_issued r hr)
  · rw [h.relations]
    exact hd.nodup.map (Relation.along_injective h.injective)

/-! ### What an extraction reads -/

/-- A condition on the relations that does not depend on the names selects the same ones. -/
theorem filter_along {p q : Relation → Bool} (hpq : ∀ r, p (r.along f) = q r)
    (relations : List Relation) :
    (relations.map (Relation.along f)).filter p = (relations.filter q).map (Relation.along f) := by
  rw [List.filter_map]
  exact congrArg _ (List.filter_congr fun r _ ↦ hpq r)

theorem relationsFrom (h : Renames f d e) (x : Nat) :
    e.relationsFrom (f x) = (d.relationsFrom x).map (Relation.along f) := by
  rw [Diagram.relationsFrom, h.relations]
  exact filter_along (fun r ↦ by simp only [Relation.along, h.injective.eq_iff]) d.relations

theorem relationsTo (h : Renames f d e) (x : Nat) :
    e.relationsTo (f x) = (d.relationsTo x).map (Relation.along f) := by
  rw [Diagram.relationsTo, h.relations]
  exact filter_along (fun r ↦ by simp only [Relation.along, h.injective.eq_iff]) d.relations

theorem successors (h : Renames f d e) (x : Nat) :
    e.successors (f x) = (d.successors x).map f := by
  rw [Diagram.successors, Diagram.successors, h.relationsFrom, List.map_reverse, List.map_map,
    List.map_map]
  rfl

theorem predecessors (h : Renames f d e) (x : Nat) :
    e.predecessors (f x) = (d.predecessors x).map f := by
  rw [Diagram.predecessors, Diagram.predecessors, h.relationsTo, List.map_reverse, List.map_map,
    List.map_map]
  rfl

/-- **The neighbours of a type stand in the same order**, since they follow the relations. -/
theorem adjacent (h : Renames f d e) (x : Nat) : e.adjacent (f x) = (d.adjacent x).map f := by
  have hother : ((d.predecessors x).map f).filter (fun other ↦ other ≠ f x) =
      ((d.predecessors x).filter fun other ↦ other ≠ x).map f := by
    rw [List.filter_map]
    refine congrArg _ (List.filter_congr fun other _ ↦ ?_)
    simp only [Function.comp_apply, ne_eq, h.injective.eq_iff]
  rw [Diagram.adjacent, Diagram.adjacent, h.successors, h.predecessors, hother, List.map_append]

theorem flatMap_adjacent (h : Renames f d e) (handles : List Nat) :
    (handles.map f).flatMap e.adjacent = (handles.flatMap d.adjacent).map f := by
  rw [List.flatMap_map, List.map_flatMap]
  exact List.flatMap_congr fun x _ ↦ h.adjacent x

/-- **Two searches from the same types run in step**, layer by layer. -/
theorem layers (h : Renames f d e) (seeds : List Nat) (k : Nat) :
    e.ball (seeds.map f) k = (d.ball seeds k).map f ∧
      e.sphere (seeds.map f) k = (d.sphere seeds k).map f := by
  have hfirsts := map_firsts h.injective
  induction k with
  | zero => exact ⟨(hfirsts [] seeds).symm, (hfirsts [] seeds).symm⟩
  | succ k ih =>
    obtain ⟨hball, hsphere⟩ := ih
    have hnext : e.sphere (seeds.map f) (k + 1) = (d.sphere seeds (k + 1)).map f := by
      rw [sphere_succ, sphere_succ, hball, hsphere, h.flatMap_adjacent, hfirsts]
    refine ⟨?_, hnext⟩
    rw [ball_succ, ball_succ, List.map_append, hball, hnext]

theorem within (h : Renames f d e) (seeds : List Nat) (depth : Nat) :
    e.within (seeds.map f) depth = (d.within seeds depth).map f := by
  rw [within_eq_ball, within_eq_ball]
  exact (h.layers seeds depth).1

/-- Restricted to the same types, the two diagrams are equal. -/
theorem restrict (h : Renames f d e) {order : List Nat} (ho : ∀ x ∈ order, d.issued x = true) :
    e.restrict (order.map f) = d.restrict order := by
  rw [Diagram.restrict, Diagram.restrict, Diagram.mk.injEq]
  refine ⟨?_, ?_⟩
  · rw [List.filterMap_map]
    exact List.filterMap_congr fun x hx ↦ h.decl x (ho x hx)
  · rw [h.relations, List.filterMap_map]
    exact List.filterMap_congr fun r _ ↦ r.renumber_along h.injective order

/-- **An extraction around the same types gives the same part**, with the same handles. -/
theorem extract (h : Renames f d e) (hd : d.WellFormed) {seeds : List Nat}
    (hs : ∀ s ∈ seeds, d.issued s = true) (depth : Nat) :
    (e.extract (seeds.map f) depth).value = (d.extract seeds depth).value := by
  show e.restrict (e.within (seeds.map f) depth) = d.restrict (d.within seeds depth)
  rw [h.within]
  exact h.restrict (hd.selection_within hs depth).issued

end Renames

/-- A diagram is renamed by keeping all names when a type is added. -/
theorem renames_addDecl (d : Diagram) (decl : Decl) : Renames id d (d.addDecl decl).2 where
  injective := Function.injective_id
  decl x hx := by
    have hne : x ≠ (d.addDecl decl).1 := Nat.ne_of_lt (of_decide_eq_true hx)
    rw [id_eq, d.decl?_addDecl, if_neg hne]
  relations := (List.map_id d.relations).symm

end Diagram

/-! ## Other orders -/

/-- The list in which the item at each position `i` has moved to the position `π i`. -/
def rearrange {α : Type} (items : List α) (π : Equiv.Perm (Fin items.length)) : List α :=
  List.ofFn fun i ↦ items[π.symm i]

section Rearranging

variable {α : Type} {items : List α} (π : Equiv.Perm (Fin items.length))

theorem length_rearrange : (rearrange items π).length = items.length := List.length_ofFn

theorem getElem?_rearrange (i : Fin items.length) :
    (rearrange items π)[(π i : Nat)]? = items[(i : Nat)]? := by
  rw [rearrange, List.getElem?_ofFn, dif_pos (π i).isLt, List.getElem?_eq_getElem i.isLt]
  simp

end Rearranging

namespace Diagram

variable {d : Diagram}

/-- Where a permutation of the handles moves a handle.  One that was not issued stays. -/
def moved (d : Diagram) (π : Equiv.Perm (Fin d.decls.length)) (x : Nat) : Nat :=
  if h : x < d.decls.length then π ⟨x, h⟩ else x

/-- The diagram in which each type has moved to the position that the permutation gives it, with
its relations in the same order. -/
def rearrange (d : Diagram) (π : Equiv.Perm (Fin d.decls.length)) : Diagram where
  decls := TypeDiagram.rearrange d.decls π
  relations := d.relations.map (Relation.along (d.moved π))

theorem moved_coe (π : Equiv.Perm (Fin d.decls.length)) (x : Fin d.decls.length) :
    d.moved π x = π x :=
  dif_pos x.isLt

theorem moved_injective (π : Equiv.Perm (Fin d.decls.length)) : Function.Injective (d.moved π) := by
  intro x y hxy
  have hlt : ∀ i, (π i : Nat) < d.decls.length := fun i ↦ (π i).isLt
  unfold moved at hxy
  split at hxy <;> split at hxy
  · exact congrArg Fin.val (π.injective (Fin.ext hxy))
  · next hy => exact absurd (hxy ▸ hlt _) hy
  · next hx _ => exact absurd (hxy ▸ hlt _) hx
  · exact hxy

theorem renames_rearrange (d : Diagram) (π : Equiv.Perm (Fin d.decls.length)) :
    Renames (d.moved π) d (d.rearrange π) where
  injective := moved_injective π
  decl x hx := by
    rw [moved, dif_pos (of_decide_eq_true hx)]
    exact getElem?_rearrange π ⟨x, of_decide_eq_true hx⟩
  relations := rfl

/-- **A neighbourhood does not depend on how the types are numbered.**  Give the types of a diagram
other handles, by any permutation, and let the relations follow them in the same order.  The result
is again a diagram that some history leads to.  Around each type, at its new handle, it has the
neighbourhood that the diagram has around that type at its old one: the same types in the same
order, the same relations between the same handles in the same order, and the same log. -/
theorem Reachable.neighbourhood_rearrange (hd : d.Reachable)
    (π : Equiv.Perm (Fin d.decls.length)) :
    (d.rearrange π).Reachable ∧
    ∀ (seed : Fin d.decls.length) (depth : Nat),
      ∃ part, d.neighbourhood seed depth = .ok part ∧
        (d.rearrange π).neighbourhood (π seed) depth = .ok part := by
  have h := d.renames_rearrange π
  refine ⟨(h.wellFormed hd.wellFormed).reachable, fun seed depth ↦ ?_⟩
  have hseed : d.issued seed = true := decide_eq_true seed.isLt
  have hseeds : ∀ s ∈ [(seed : Nat)], d.issued s = true := List.forall_mem_singleton.mpr hseed
  have hvalue := h.extract hd.wellFormed hseeds depth
  rw [List.map_singleton, moved_coe] at hvalue
  -- the log holds the sizes of the two diagrams and of their parts
  have hextract :
      (d.rearrange π).extract [(π seed : Nat)] depth = d.extract [(seed : Nat)] depth := by
    have hdecls : (d.rearrange π).decls.length = d.decls.length := length_rearrange π
    have hrelations : (d.rearrange π).relations.length = d.relations.length := List.length_map ..
    have hparts : (d.rearrange π).restrict ((d.rearrange π).within [(π seed : Nat)] depth) =
        d.restrict (d.within [(seed : Nat)] depth) := hvalue
    rw [Diagram.extract, Diagram.extract, hparts, hdecls, hrelations]
  refine ⟨_, neighbourhood_eq_ok_iff.mpr ⟨hseed, rfl⟩, neighbourhood_eq_ok_iff.mpr ⟨?_, ?_⟩⟩
  · rw [← moved_coe]
    exact h.issued hseed
  · exact hextract.symm

theorem neighbourhood_rearrange_tangle :
    let d := History.tangle.diagram
    let first : Fin d.decls.length := ⟨0, by decide⟩
    let last : Fin d.decls.length := ⟨3, by decide⟩
    let π : Equiv.Perm (Fin d.decls.length) := Equiv.swap first last
    d.Reachable ∧ (d.rearrange π).Reachable ∧ (d.rearrange π).relations ≠ d.relations ∧
      ∃ part, d.neighbourhood first 2 = .ok part ∧
        (d.rearrange π).neighbourhood (π first) 2 = .ok part := by
  intro d first last π
  have hd : d.Reachable := ⟨History.tangle, rfl⟩
  have h := hd.neighbourhood_rearrange π
  exact ⟨hd, h.1, by decide +kernel, h.2 first 2⟩

end Diagram
end TypeDiagram
