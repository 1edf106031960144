import TypeDiagram.Proofs.Composition
import TypeDiagram.Proofs.Locality

/-!
# Several neighbourhoods in one

A name may belong to several types.  To focus on it is to search once, from all of them together,
and not to search from each of them and to put the results together.  In the one search a type is
claimed by the seed that reaches it first, and a seed may lie on the way of another one.  This file
says that nothing is lost or gained by this: the part shows what the neighbourhoods of the seeds
show together, and whatever relates two types that it shows.

## What is here

* `Diagram.InducedAlong.relations_sublist` — of two induced parts, one of which shows at least what
  the other one shows, the larger one has all relations of the smaller one.
* `Diagram.mem_within_iff_exists` — a search from several seeds finds what is found from one of
  them.
* `Diagram.Merges` — all that makes a part the merged neighbourhood of some seeds, and
  `Diagram.WellFormed.merges_extract` — an extraction is that.

A merged neighbourhood can have relations that none of the neighbourhoods has: those from a type
that one seed is near to, to a type that only another one is near to.

Nor does the merged neighbourhood list its types as the neighbourhoods do, one after the other.  Its
types stand in the order of the one search, in which the seeds come first and the neighbours of all
seeds next.  So the statement compares the relations after they were moved to the handles of the
diagram, where all these parts can be compared.
-/

set_option autoImplicit false

namespace TypeDiagram
namespace Diagram

/-! ## Parts that show more -/

variable {d small large : Diagram} {f g : Nat → Nat} {seeds : List Nat}

/-- **A part that shows more has more relations**, and they stand in the same order. -/
theorem InducedAlong.relations_sublist (hsmall : small.InducedAlong d f)
    (hlarge : large.InducedAlong d g) (h : small.handles.map f ⊆ large.handles.map g) :
    (small.relations.map (Relation.along f)).Sublist (large.relations.map (Relation.along g)) := by
  rw [hsmall.relations, hlarge.relations]
  refine List.monotone_filter_right d.relations fun r hr ↦ ?_
  rw [decide_eq_true_eq] at hr ⊢
  exact ⟨h hr.1, h hr.2⟩

/-- **A search from several seeds finds what is found from one of them.** -/
theorem mem_within_iff_exists {depth x : Nat} :
    x ∈ d.within seeds depth ↔ ∃ s ∈ seeds, x ∈ d.within [s] depth := by
  simp [mem_within_iff]

/-! ## Merged neighbourhoods -/

/-- The part is what the neighbourhoods of the seeds are together.  The handle `i` of the part
stands for the handle `f i` of the diagram. -/
structure Merges (part d : Diagram) (seeds : List Nat) (depth : Nat) (f : Nat → Nat) : Prop where
  /-- The part is induced on what a search from the seeds finds. -/
  lists : part.Lists d (d.within seeds depth) f
  /-- The seeds have the first handles, in their order. -/
  seeds_first : seeds <+: part.handles.map f
  /-- The part shows what one of the neighbourhoods shows. -/
  shows_iff : ∀ x, x ∈ part.handles.map f ↔ ∃ s ∈ seeds, x ∈ d.within [s] depth
  /-- Each of the neighbourhoods is there, and its relations are relations of the part. -/
  relations : ∀ s ∈ seeds, ∃ near g, d.neighbourhood s depth = .ok near ∧
    near.value.Lists d (d.within [s] depth) g ∧
    (near.value.relations.map (Relation.along g)).Sublist (part.relations.map (Relation.along f))
  /-- Whatever else the part has, joins two types that the neighbourhoods show. -/
  ends : ∀ r ∈ part.relations, (∃ s ∈ seeds, f r.source ∈ d.within [s] depth) ∧
    ∃ s ∈ seeds, f r.target ∈ d.within [s] depth

/-- **An extraction merges the neighbourhoods of its seeds.** -/
theorem WellFormed.merges_extract (hd : d.WellFormed) (hn : seeds.Nodup)
    (hs : ∀ s ∈ seeds, d.issued s = true) (depth : Nat) :
    ∃ f, (d.extract seeds depth).value.Merges d seeds depth f := by
  have hlists := hd.lists_extract hs depth
  refine ⟨_, hlists, ?_, fun x ↦ ?_, fun s hmem ↦ ?_, fun r hr ↦ ?_⟩
  · rw [hlists.handles]
    exact isPrefix_within hn depth
  · rw [hlists.handles]
    exact mem_within_iff_exists
  · have hissued : ∀ t ∈ [s], d.issued t = true := List.forall_mem_singleton.mpr (hs s hmem)
    have hnear := hd.lists_extract hissued depth
    refine ⟨_, _, neighbourhood_eq_ok_iff.mpr ⟨hs s hmem, rfl⟩, hnear,
      hnear.relations_sublist hlists.toInducedAlong ?_⟩
    rw [hlists.handles, hnear.handles]
    exact fun x hx ↦ mem_within_iff_exists.mpr ⟨s, hmem, hx⟩
  · have hshown : ∀ i, (d.extract seeds depth).value.issued i = true →
        ∃ s ∈ seeds, (d.within seeds depth).getD i 0 ∈ d.within [s] depth := fun i hi ↦ by
      rw [← mem_within_iff_exists]
      nth_rewrite 1 [← hlists.handles]
      exact List.mem_map_of_mem (mem_handles_iff.mpr hi)
    exact ⟨hshown _ (hlists.closed r hr).1, hshown _ (hlists.closed r hr).2⟩

/-! ## The types of a name -/

/-- The types of a name, in order, are the first types of what is shown around the name. -/
theorem filter_name_isPrefix (d : Diagram) (name : String) (depth : Nat) :
    d.decls.filter (fun decl ↦ decl.name = name) <+:
      (d.extract (d.handlesNamed name) depth).value.decls := by
  have hseeds : (d.handlesNamed name).filterMap d.decl? =
      d.decls.filter fun decl ↦ decl.name = name :=
    d.decls_restrict_handlesWhere fun decl ↦ decl.name = name
  rw [← hseeds]
  exact (isPrefix_within (d.nodup_handlesNamed name) depth).filterMap d.decl?

theorem handlesNamed_eq_singleton {name : String} {s : Nat}
    (h : ∀ x, (∃ decl, d.decl? x = some decl ∧ decl.name = name) ↔ x = s) :
    d.handlesNamed name = [s] := by
  refine List.perm_singleton.mp ?_
  rw [List.perm_ext_iff_of_nodup (d.nodup_handlesNamed name) (List.nodup_singleton s)]
  intro x
  rw [mem_handlesNamed, List.mem_singleton, h]

/-- **To focus on a name is to merge the neighbourhoods of the types with that name.**  It fails
exactly when no type has the name, and then says so.  Otherwise the types of the name come first in
the part, in their order, and the part merges their neighbourhoods: it shows what one of them shows,
it has each relation that one of them has, and all that it has beyond these are relations between
two types that they show.  If the name belongs to a single type, the result is that of asking for
the neighbourhood of this type. -/
theorem Reachable.focus_merges (hd : d.Reachable) (name : String) (depth : Nat) :
    (∀ e, d.focus name depth = .error e ↔
      e = .typeNotFound name ∧ ∀ x decl, d.decl? x = some decl → decl.name ≠ name) ∧
    ((d.handlesNamed name).Pairwise (· < ·) ∧
      ∀ x, x ∈ d.handlesNamed name ↔ ∃ decl, d.decl? x = some decl ∧ decl.name = name) ∧
    ((∃ x decl, d.decl? x = some decl ∧ decl.name = name) →
      ∃ part f, d.focus name depth = .ok part ∧
        d.decls.filter (fun decl ↦ decl.name = name) <+: part.value.decls ∧
        part.value.Merges d (d.handlesNamed name) depth f) ∧
    ∀ s, (∀ x, (∃ decl, d.decl? x = some decl ∧ decl.name = name) ↔ x = s) →
      d.focus name depth = d.neighbourhood s depth := by
  refine ⟨fun e ↦ ?_, ⟨d.pairwise_handlesNamed name, fun x ↦ mem_handlesNamed⟩, fun hname ↦ ?_,
    fun s hs ↦ ?_⟩
  · rw [focus_eq_error_iff, List.eq_nil_iff_forall_not_mem]
    simp only [mem_handlesNamed, not_exists, not_and, ne_eq]
  · have hissued : ∀ s ∈ d.handlesNamed name, d.issued s = true := fun s ↦
      issued_of_mem_handlesNamed
    obtain ⟨f, hf⟩ := hd.wellFormed.merges_extract (d.nodup_handlesNamed name) hissued depth
    exact ⟨_, f, focus_eq_ok_iff.mpr ⟨handlesNamed_ne_nil_iff.mpr hname, rfl⟩,
      d.filter_name_isPrefix name depth, hf⟩
  · have hseeds := handlesNamed_eq_singleton hs
    have hissued : d.issued s = true :=
      issued_of_mem_handlesNamed (hseeds ▸ List.mem_singleton_self s)
    have hfocus : d.focus name depth = .ok (d.extract [s] depth) :=
      focus_eq_ok_iff.mpr ⟨by simp [hseeds], by rw [hseeds]⟩
    rw [hfocus, neighbourhood_eq_ok_iff.mpr ⟨hissued, rfl⟩]

/-- A relation leads from one neighbourhood of an `A` to the other one. -/
theorem focus_merges_crossing :
    let h : History :=
      ⟨.ofDecls [.named "A" "", .named "B" "", .named "A" "", .named "C" "", .named "D" ""],
        [.addRelation ⟨0, 1, .encapsulates⟩, .addRelation ⟨1, 3, .encapsulates⟩,
          .addRelation ⟨3, 2, .encapsulates⟩, .addRelation ⟨3, 4, .encapsulates⟩]⟩
    let d := h.diagram
    d.Reachable ∧ d.focus "E" 1 = .error (.typeNotFound "E") ∧
    (d.handlesNamed "A" = [0, 2] ∧ d.within [0] 1 = [0, 1] ∧ d.within [2] 1 = [2, 3]) ∧
    ((∃ x decl, d.decl? x = some decl ∧ decl.name = "A") ∧
      ∃ part f, d.focus "A" 1 = .ok part ∧
        d.decls.filter (fun decl ↦ decl.name = "A") <+: part.value.decls ∧
        part.value.Merges d (d.handlesNamed "A") 1 f) ∧
    (d.extract [0, 2] 1).value.relations =
      [⟨0, 2, .encapsulates⟩, ⟨2, 3, .encapsulates⟩, ⟨3, 1, .encapsulates⟩] ∧
    ((∀ x, (∃ decl, d.decl? x = some decl ∧ decl.name = "B") ↔ x = 1) ∧
      d.focus "B" 1 = d.neighbourhood 1 1) := by
  intro h d
  have hd : d.Reachable := ⟨h, rfl⟩
  have hunknown : ∀ x decl, d.decl? x = some decl → decl.name ≠ "E" := by
    have hnil : d.handlesNamed "E" = [] := by decide +kernel
    intro x decl hdecl hname
    simpa [hnil] using mem_handlesNamed.mpr ⟨decl, hdecl, hname⟩
  have hname : ∃ x decl, d.decl? x = some decl ∧ decl.name = "A" :=
    ⟨2, .named "A" "", by decide +kernel, rfl⟩
  have hsingle : ∀ x, (∃ decl, d.decl? x = some decl ∧ decl.name = "B") ↔ x = 1 := by
    have hseeds : d.handlesNamed "B" = [1] := by decide +kernel
    intro x
    rw [← mem_handlesNamed, hseeds, List.mem_singleton]
  obtain ⟨hmissing, -⟩ := hd.focus_merges "E" 1
  obtain ⟨-, -, hmerges, -⟩ := hd.focus_merges "A" 1
  obtain ⟨-, -, -, halone⟩ := hd.focus_merges "B" 1
  exact ⟨hd, (hmissing _).mpr ⟨rfl, hunknown⟩,
    ⟨by decide +kernel, by decide +kernel, by decide +kernel⟩, ⟨hname, hmerges hname⟩,
    by decide +kernel, hsingle, halone 1 hsingle⟩

end Diagram
end TypeDiagram
