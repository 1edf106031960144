import TypeDiagram.Proofs.History
import TypeDiagram.Proofs.Walks

/-!
# Everything between the types of a part is in the part

Extracting a part of a diagram gives every type in it a new handle, and every relation two new ends.
This file follows the handles back.  Each handle of the part stands for a handle of the whole
diagram, and seen in this way the part is *induced*: it has some of the types, and of the relations
exactly those that join two of these types, in the order of the whole diagram.

## What is here

* `Relation.along f` — a relation, moved along a map of handles.
* `Diagram.relations_restrict` — restricting a diagram is a selection of relations followed by a
  move.  Nothing is assumed of the list of handles to which the diagram is restricted.
* `Diagram.InducedAlong` — what it means that a part is induced.
* `Diagram.Selection.inducedAlong` — a part is induced, along the map that undoes the renumbering.
  Here it matters that no handle is selected twice, for otherwise two handles of the part would
  stand for the same type.
* `Diagram.Lists` — the form in which other modules use this: the part is induced, and the handles
  that its handles stand for are given as a list.

The statement is about a map of handles, and not just about a set of types, for two reasons.  Two
types of a diagram may be equal, with the same name and the same fields, so that a set of types does
not say which of them are shown.  And the relations are compared as lists, by moving each of them
along the map: none is added, left out or doubled, and none stands at another place.

A relation from a type to itself joins two shown types as soon as the type is shown.  So even at the
bound zero an extraction can have relations, namely all those among the seeds.
-/

set_option autoImplicit false

namespace TypeDiagram

/-! ## Moving relations -/

/-- The relation between the images of the two ends. -/
def Relation.along (f : Nat → Nat) (r : Relation) : Relation := ⟨f r.source, f r.target, r.kind⟩

/-- A move that undoes another one brings a relation back. -/
theorem Relation.along_along_cancel {f g : Nat → Nat} {r : Relation}
    (hs : g (f r.source) = r.source) (ht : g (f r.target) = r.target) :
    (r.along f).along g = r := by
  simp [along, hs, ht]

/-- At the place of a handle stands the handle. -/
theorem getD_idxOf {order : List Nat} {x : Nat} (hx : x ∈ order) :
    order.getD (order.idxOf x) 0 = x := by
  rw [List.getD_eq_getElem?_getD, List.getElem?_idxOf hx, Option.getD_some]

/-- Renumbering moves a relation to the places of its ends, if it finds both of them. -/
theorem Relation.renumber_eq_ite (order : List Nat) (r : Relation) :
    r.renumber order =
      if r.source ∈ order ∧ r.target ∈ order then some (r.along order.idxOf) else none := by
  refine Option.ext fun s ↦ ?_
  rw [renumber_eq_some_iff, idxOf?_eq_some_iff_mem, idxOf?_eq_some_iff_mem,
    Option.ite_none_right_eq_some, Option.some_inj, along]
  obtain ⟨source, target, kind⟩ := s
  rw [Relation.mk.injEq]
  tauto

namespace Diagram

/-- **The relations of a part are those between its types**, moved to their places. -/
theorem relations_restrict (d : Diagram) (order : List Nat) :
    (d.restrict order).relations =
      (d.relations.filter fun r ↦ r.source ∈ order ∧ r.target ∈ order).map
        (Relation.along order.idxOf) := by
  rw [restrict, ← List.filterMap_eq_map, List.filterMap_filter]
  refine List.filterMap_congr fun r _ ↦ ?_
  simp only [Relation.renumber_eq_ite, decide_eq_true_eq, Function.comp_apply]

/-! ## Induced parts -/

/-- The part consists of the types that its handles stand for, and of all relations between them.
The handle `i` of the part stands for the handle `f i` of the whole diagram. -/
structure InducedAlong (part d : Diagram) (f : Nat → Nat) : Prop where
  /-- Every handle of the part stands for an issued handle. -/
  issued : ∀ i, part.issued i = true → d.issued (f i) = true
  /-- No two handles of the part stand for the same one. -/
  injective : ∀ i j, part.issued i = true → part.issued j = true → f i = f j → i = j
  /-- A handle of the part has the type of the handle that it stands for. -/
  decl : ∀ i, part.issued i = true → part.decl? i = d.decl? (f i)
  /-- The relations of the part join handles of the part. -/
  closed : ∀ r ∈ part.relations, part.issued r.source = true ∧ part.issued r.target = true
  /-- The relations of the part stand for the relations between its types, one by one. -/
  relations : part.relations.map (Relation.along f) =
    d.relations.filter fun r ↦ r.source ∈ part.handles.map f ∧ r.target ∈ part.handles.map f

variable {d part : Diagram} {f : Nat → Nat} {order : List Nat}

/-- It does not matter what the map does to handles that the part has not issued. -/
theorem InducedAlong.congr {g : Nat → Nat} (h : part.InducedAlong d f)
    (hfg : ∀ i, part.issued i = true → f i = g i) : part.InducedAlong d g := by
  have hhandles : part.handles.map g = part.handles.map f :=
    List.map_congr_left fun i hi ↦ (hfg i (mem_handles_iff.mp hi)).symm
  have hmoved : part.relations.map (Relation.along g) = part.relations.map (Relation.along f) := by
    refine List.map_congr_left fun r hr ↦ ?_
    obtain ⟨hs, ht⟩ := h.closed r hr
    simp [Relation.along, hfg _ hs, hfg _ ht]
  refine ⟨fun i hi ↦ ?_, fun i j hi hj hij ↦ ?_, fun i hi ↦ ?_, h.closed, ?_⟩
  · rw [← hfg i hi]
    exact h.issued i hi
  · rw [← hfg i hi, ← hfg j hj] at hij
    exact h.injective i j hi hj hij
  · rw [← hfg i hi]
    exact h.decl i hi
  · rw [hmoved, hhandles]
    exact h.relations

/-- An induced part has no more types than the whole diagram. -/
theorem InducedAlong.length_decls_le (h : part.InducedAlong d f) :
    part.decls.length ≤ d.decls.length := by
  have hnodup : (part.handles.map f).Nodup := by
    refine List.nodup_range.map_on fun i hi j hj ↦ ?_
    exact h.injective i j (mem_handles_iff.mp hi) (mem_handles_iff.mp hj)
  have hsub : part.handles.map f ⊆ d.handles := by
    intro x hx
    obtain ⟨i, hi, rfl⟩ := List.mem_map.mp hx
    exact mem_handles_iff.mpr (h.issued i (mem_handles_iff.mp hi))
  simpa [handles] using hnodup.length_le_of_subset hsub

/-- An induced part has no more relations than the whole diagram. -/
theorem InducedAlong.length_relations_le (h : part.InducedAlong d f) :
    part.relations.length ≤ d.relations.length := by
  have hle := List.length_filter_le (fun r ↦ decide (r.source ∈ part.handles.map f ∧
    r.target ∈ part.handles.map f)) d.relations
  rwa [← h.relations, List.length_map] at hle

/-! ## Restrictions are induced -/

namespace Selection

/-- The selected handles, read off their places. -/
theorem map_getD_handles (h : d.Selection order) :
    (d.restrict order).handles.map (fun i ↦ order.getD i 0) = order := by
  rw [handles, h.length_restrict]
  refine List.ext_getElem (by simp) fun i hi hi' ↦ ?_
  simp [List.getElem?_eq_getElem hi']

/-- A handle of the part is the number of the handle that is selected at its place. -/
theorem idxOf?_getD (h : d.Selection order) {i : Nat} (hi : (d.restrict order).issued i = true) :
    order.idxOf? (order.getD i 0) = some i := by
  rw [Diagram.issued, decide_eq_true_eq, h.length_restrict] at hi
  refine idxOf?_eq_some_of_getElem? h.nodup ?_
  rw [List.getD_eq_getElem?_getD, List.getElem?_eq_getElem hi, Option.getD_some]

/-- **A part is induced**, along the map that undoes the renumbering. -/
theorem inducedAlong (h : d.Selection order) (hd : d.WellFormed) :
    (d.restrict order).InducedAlong d fun i ↦ order.getD i 0 := by
  have hwf := hd.restrict h
  refine ⟨fun i hi ↦ ?_, fun i j hi hj hij ↦ ?_, fun i hi ↦ ?_, fun r hr ↦ ?_, ?_⟩
  · exact h.issued _ (mem_of_idxOf?_eq_some (h.idxOf?_getD hi))
  · have hplace := h.idxOf?_getD hi
    rw [show order.getD i 0 = order.getD j 0 from hij, h.idxOf?_getD hj] at hplace
    exact (Option.some.inj hplace).symm
  · exact h.decl?_restrict (h.idxOf?_getD hi)
  · exact ⟨hwf.source_issued r hr, hwf.target_issued r hr⟩
  · -- moving a relation to the places of its ends and back leaves it where it was
    rw [h.map_getD_handles, relations_restrict, List.map_map]
    refine (List.map_congr_left fun r hr ↦ ?_).trans (List.map_id _)
    have hends := of_decide_eq_true (List.mem_filter.mp hr).2
    exact Relation.along_along_cancel (getD_idxOf hends.1) (getD_idxOf hends.2)

end Selection

/-! ## Extractions are induced -/

/-- The part is induced, and its handles stand for the listed handles, one by one. -/
structure Lists (part d : Diagram) (order : List Nat) (f : Nat → Nat) : Prop
    extends part.InducedAlong d f where
  handles : part.handles.map f = order

/-- The handles of an extraction stand for what the search finds, in the order of discovery. -/
theorem WellFormed.lists_extract (hd : d.WellFormed) {seeds : List Nat}
    (hs : ∀ s ∈ seeds, d.issued s = true) (depth : Nat) :
    (d.extract seeds depth).value.Lists d (d.within seeds depth) fun i ↦
      (d.within seeds depth).getD i 0 := by
  have hselection := hd.selection_within hs depth
  exact ⟨hselection.inducedAlong hd, hselection.map_getD_handles⟩

/-- The part is induced on the types that satisfy the condition. -/
def InducedOn (part d : Diagram) (P : Nat → Prop) : Prop :=
  ∃ f, part.InducedAlong d f ∧ ∀ x, x ∈ part.handles.map f ↔ P x

theorem WellFormed.inducedOn_extract (hd : d.WellFormed) {seeds : List Nat}
    (hs : ∀ s ∈ seeds, d.issued s = true) (depth : Nat) :
    (d.extract seeds depth).value.InducedOn d fun x ↦ ∃ s ∈ seeds, d.Near depth s x := by
  have hlists := hd.lists_extract hs depth
  refine ⟨_, hlists.toInducedAlong, fun x ↦ ?_⟩
  rw [hlists.handles, mem_within_iff]

/-- **An extraction is the induced part on the types within the bound.**  Around an issued handle it
succeeds, and its handles stand for different handles of the diagram: those of the types near the
given one.  It has the types of these, and all relations between them, of the same kinds, in the
same directions and in the same order.  The same is true of a name that some type has.  So an
extraction never has more types or more relations than the diagram. -/
theorem Reachable.extraction_induced (hd : d.Reachable) :
    (∀ seed depth, d.issued seed = true →
      ∃ part, d.neighbourhood seed depth = .ok part ∧
        (part.value.InducedOn d fun x ↦ d.Near depth seed x) ∧
        part.value.decls.length ≤ d.decls.length ∧
        part.value.relations.length ≤ d.relations.length) ∧
    ∀ name depth, (∃ x decl, d.decl? x = some decl ∧ decl.name = name) →
      ∃ part, d.focus name depth = .ok part ∧
        (part.value.InducedOn d fun x ↦ ∃ s ∈ d.handlesNamed name, d.Near depth s x) ∧
        part.value.decls.length ≤ d.decls.length ∧
        part.value.relations.length ≤ d.relations.length := by
  have h := forall_extraction (d := d)
    (P := fun seeds depth part ↦ (part.InducedOn d fun x ↦ ∃ s ∈ seeds, d.Near depth s x) ∧
      part.decls.length ≤ d.decls.length ∧ part.relations.length ≤ d.relations.length)
    fun seeds depth _ hs ↦ by
      obtain ⟨f, hf, himage⟩ := hd.wellFormed.inducedOn_extract hs depth
      exact ⟨⟨f, hf, himage⟩, hf.length_decls_le, hf.length_relations_le⟩
  simpa only [List.mem_singleton, exists_eq_left] using h

theorem extraction_induced_tangle :
    let d := History.tangle.diagram
    (d.issued 1 = true ∧ ∃ part, d.neighbourhood 1 1 = .ok part ∧
      (part.value.InducedOn d fun x ↦ d.Near 1 1 x) ∧
      part.value.decls.length ≤ d.decls.length ∧
      part.value.relations.length ≤ d.relations.length) ∧
    (∃ x decl, d.decl? x = some decl ∧ decl.name = "A") ∧
    ∃ part, d.focus "A" 1 = .ok part ∧
      (part.value.InducedOn d fun x ↦ ∃ s ∈ d.handlesNamed "A", d.Near 1 s x) ∧
      part.value.decls.length ≤ d.decls.length ∧
      part.value.relations.length ≤ d.relations.length := by
  intro d
  have hseed : d.issued 1 = true := by decide
  have hname : ∃ x decl, d.decl? x = some decl ∧ decl.name = "A" := ⟨3, .named "A" "", rfl, rfl⟩
  have h : _ ∧ _ := Reachable.extraction_induced ⟨History.tangle, rfl⟩
  exact ⟨⟨hseed, h.1 1 1 hseed⟩, hname, h.2 "A" 1 hname⟩

end Diagram
end TypeDiagram
