import TypeDiagram.Proofs.Merging
import TypeDiagram.Proofs.Queries

/-!
# What a part shows around its types

Inside an extraction a type can be asked for its neighbours and for the relations from and to it,
as in the whole diagram.  An extraction is made by copying relations between new handles, and the
neighbours of a type are worked out anew from the copies.  This file compares the answers.

The types of an extraction are of two kinds.  The *interior* consists of the types that are nearer
to the seeds than the bound; whatever is adjacent to one of them is within the bound, so nothing
around it is lost.  The *rim* consists of the types at the bound; relations that lead further out
are left out there, and the others stay in their order.

Relations between two types at the rim are kept like all others, and a type at the rim keeps at
least the relation by which it was found, unless it is a seed.  How much else it loses is a matter
of the diagram beyond the bound, and nothing is said about it.

## What is here

* `map_filterMap_eq_filter` — renumbering items and going back is a selection.  It is used for
  handles and for relations.
* `Diagram.SameAround` and `Diagram.RestrictedAround` — a handle of a part has the surroundings of
  the handle that it stands for, all of them or as far as the part shows them.
* `Diagram.Selection.restrictedAround` — **restricting a diagram restricts the surroundings of each
  type**.  This holds for every selection of types, be it a ball or not.
* `Diagram.RestrictedAround.sameAround` — where no neighbour is left out, nothing is.
* `Diagram.atDistance_restrict_iff` — distances in an extraction are distances in the whole diagram,
  so it does not matter where one measures what is nearer than the bound.
-/

set_option autoImplicit false

namespace TypeDiagram

/-! ## Renumbering and going back -/

/-- If going back undoes a renumbering, then to do one after the other is to select the items that
get a number. -/
theorem map_filterMap_eq_filter {α β : Type} {g : α → Option β} {f : β → α} {p : α → Bool}
    (h : ∀ x, (g x).map f = if p x then some x else none) (items : List α) :
    (items.filterMap g).map f = items.filter p := by
  rw [List.map_filterMap, ← List.filterMap_eq_filter]
  exact List.filterMap_congr fun x _ ↦ h x

section

variable (order : List Nat)

theorem map_getD_filterMap_idxOf? (handles : List Nat) :
    (handles.filterMap order.idxOf?).map (fun i ↦ order.getD i 0) =
      handles.filter fun x ↦ x ∈ order := by
  refine map_filterMap_eq_filter (fun x ↦ ?_) handles
  by_cases hx : x ∈ order
  · rw [idxOf?_eq_some_iff_mem.mpr ⟨hx, rfl⟩, Option.map_some, getD_idxOf hx]
    simp [hx]
  · rw [List.idxOf?_eq_none_iff.mpr hx]
    simp [hx]

theorem map_along_filterMap_renumber (relations : List Relation) :
    (relations.filterMap (Relation.renumber order)).map (Relation.along fun i ↦ order.getD i 0) =
      relations.filter fun r ↦ r.source ∈ order ∧ r.target ∈ order := by
  refine map_filterMap_eq_filter (fun r ↦ ?_) relations
  rw [Relation.renumber_eq_ite]
  by_cases hr : r.source ∈ order ∧ r.target ∈ order
  · rw [if_pos hr, Option.map_some,
      Relation.along_along_cancel (getD_idxOf hr.1) (getD_idxOf hr.2)]
    simp [hr]
  · rw [if_neg hr]
    simp [hr]

end

namespace Diagram

variable {d part : Diagram} {f : Nat → Nat} {seeds order : List Nat} {depth k i x y : Nat}

/-! ## Surroundings -/

/-- Around the handle `i` the part shows what the diagram shows around the handle `f i`. -/
structure SameAround (part d : Diagram) (f : Nat → Nat) (i : Nat) : Prop where
  neighbours : (part.neighbours i).map f = d.neighbours (f i)
  relationsFrom : (part.relationsFrom i).map (Relation.along f) = d.relationsFrom (f i)
  relationsTo : (part.relationsTo i).map (Relation.along f) = d.relationsTo (f i)

/-- Around the handle `i` the part shows what the diagram shows around the handle `f i`, without
the types that the part does not show and without the relations that touch one of these. -/
structure RestrictedAround (part d : Diagram) (f : Nat → Nat) (i : Nat) : Prop where
  neighbours : (part.neighbours i).map f =
    (d.neighbours (f i)).filter fun x ↦ x ∈ part.handles.map f
  relationsFrom : (part.relationsFrom i).map (Relation.along f) =
    (d.relationsFrom (f i)).filter fun r ↦
      r.source ∈ part.handles.map f ∧ r.target ∈ part.handles.map f
  relationsTo : (part.relationsTo i).map (Relation.along f) =
    (d.relationsTo (f i)).filter fun r ↦
      r.source ∈ part.handles.map f ∧ r.target ∈ part.handles.map f

/-- **The neighbours of a type in a part are its neighbours in the whole**, as far as they are in
the part.  Repetitions may be erased before or after the renumbering. -/
theorem neighbours_restrict (hx : order.idxOf? x = some i) :
    (d.restrict order).neighbours i = (d.neighbours x).filterMap order.idxOf? := by
  rw [neighbours_eq_firsts, neighbours_eq_firsts, adjacent_restrict hx,
    filterMap_firsts fun _ _ _ ↦ idxOf?_inj]
  rfl

/-- **Restricting a diagram restricts the surroundings of each type.** -/
theorem Selection.restrictedAround (h : d.Selection order)
    (hi : (d.restrict order).issued i = true) :
    (d.restrict order).RestrictedAround d (fun i ↦ order.getD i 0) i := by
  have hplace := h.idxOf?_getD hi
  refine ⟨?_, ?_, ?_⟩
  · rw [neighbours_restrict hplace, map_getD_filterMap_idxOf?, h.map_getD_handles]
  · rw [relationsFrom_restrict hplace, map_along_filterMap_renumber, h.map_getD_handles]
  · rw [relationsTo_restrict hplace, map_along_filterMap_renumber, h.map_getD_handles]

/-- **Where no neighbour is left out, nothing is.** -/
theorem RestrictedAround.sameAround (h : part.RestrictedAround d f i)
    (hi : part.issued i = true) (hall : ∀ y ∈ d.adjacent (f i), y ∈ part.handles.map f) :
    part.SameAround d f i := by
  have hself : f i ∈ part.handles.map f := List.mem_map_of_mem (mem_handles_iff.mpr hi)
  refine ⟨?_, ?_, ?_⟩
  · rw [h.neighbours]
    refine List.filter_eq_self.mpr fun y hy ↦ decide_eq_true (hall y ?_)
    exact mem_neighbours_iff_adjacent.mp hy
  · rw [h.relationsFrom]
    refine List.filter_eq_self.mpr fun r hr ↦ decide_eq_true ?_
    obtain ⟨hmem, hsource⟩ := mem_relationsFrom.mp hr
    exact ⟨hsource ▸ hself, hall _ (mem_adjacent.mpr ⟨r, hmem, .inl ⟨hsource, rfl⟩⟩)⟩
  · rw [h.relationsTo]
    refine List.filter_eq_self.mpr fun r hr ↦ decide_eq_true ?_
    obtain ⟨hmem, htarget⟩ := mem_relationsTo.mp hr
    exact ⟨hall _ (mem_adjacent.mpr ⟨r, hmem, .inr ⟨rfl, htarget⟩⟩), htarget ▸ hself⟩

/-! ## Interior and rim -/

theorem exists_atDistance (hx : x ∈ d.within seeds depth) :
    ∃ k ≤ depth, d.AtDistance seeds k x := by
  rw [within_eq_ball, ball_eq_flatMap_sphere] at hx
  obtain ⟨k, hk, hx⟩ := List.mem_flatMap.mp hx
  exact ⟨k, Nat.le_of_lt_succ (List.mem_range.mp hk), mem_sphere_iff.mp hx⟩

/-- **What is adjacent to the interior is within the bound.** -/
theorem AtDistance.mem_within_of_mem_adjacent (hx : d.AtDistance seeds k x) (hk : k < depth)
    (hy : y ∈ d.adjacent x) : y ∈ d.within seeds depth := by
  have hball : x ∈ d.ball seeds k := sphere_subset_ball k (mem_sphere_iff.mpr hx)
  rw [within_eq_ball]
  exact (ball_isPrefix hk).subset (mem_ball_succ.mpr (.inr ⟨x, hball, hy⟩))

/-- A type that an extraction shows is in the same layer of both searches. -/
theorem AtDistance.restrict (hx : (d.within seeds depth).idxOf? x = some i) (hk : k ≤ depth)
    (h : d.AtDistance seeds k x) :
    (d.restrict (d.within seeds depth)).AtDistance
      (seeds.filterMap (d.within seeds depth).idxOf?) k i := by
  rw [← mem_sphere_iff] at h ⊢
  rw [within_eq_ball] at hx ⊢
  rw [(layers_restrict_ball d seeds depth (Nat.le_succ_of_le hk)).2]
  exact List.mem_filterMap.mpr ⟨x, h, hx⟩

/-- **Distances in an extraction are distances in the whole diagram.** -/
theorem atDistance_restrict_iff (hx : (d.within seeds depth).idxOf? x = some i) :
    (d.restrict (d.within seeds depth)).AtDistance
      (seeds.filterMap (d.within seeds depth).idxOf?) k i ↔ d.AtDistance seeds k x := by
  -- there is one distance in each of them, and the extraction keeps the one of the diagram
  obtain ⟨n, hn, hdist⟩ := exists_atDistance (mem_of_idxOf?_eq_some hx)
  have hpart := hdist.restrict hx hn
  exact ⟨fun h ↦ h.unique hpart ▸ hdist, fun h ↦ h.unique hdist ▸ hpart⟩

/-! ## Extractions keep surroundings -/

/-- All that the part shows around its types, compared with what the diagram shows there.  The
handle `i` of the part stands for the handle `f i` of the diagram. -/
structure KeepsSurroundings (part d : Diagram) (seeds : List Nat) (depth : Nat) (f : Nat → Nat) :
    Prop where
  /-- The part is induced on what a search from the seeds finds. -/
  lists : part.Lists d (d.within seeds depth) f
  /-- The seeds have the first handles, in their order. -/
  seeds_first : (List.range seeds.length).map f = seeds
  /-- Each type of the part is in the interior or at the rim. -/
  distance : ∀ i, part.issued i = true → ∃ k ≤ depth, d.AtDistance seeds k (f i)
  /-- The part has the distances of the diagram. -/
  distance_iff : ∀ i k, part.issued i = true →
    (part.AtDistance (List.range seeds.length) k i ↔ d.AtDistance seeds k (f i))
  /-- In the interior all surroundings are kept. -/
  interior : ∀ i k, part.issued i = true → d.AtDistance seeds k (f i) → k < depth →
    part.SameAround d f i
  /-- At the rim the surroundings are restricted to what the part shows. -/
  rim : ∀ i, part.issued i = true → d.AtDistance seeds depth (f i) → part.RestrictedAround d f i

theorem WellFormed.keepsSurroundings_extract (hd : d.WellFormed) (hn : seeds.Nodup)
    (hs : ∀ s ∈ seeds, d.issued s = true) (depth : Nat) :
    (d.extract seeds depth).value.KeepsSurroundings d seeds depth fun i ↦
      (d.within seeds depth).getD i 0 := by
  have hselection := hd.selection_within hs depth
  have hlists := hd.lists_extract hs depth
  have hseeds := filterMap_seeds (d := d) hn depth
  have hshown : ∀ s ∈ seeds, s ∈ d.within seeds depth := (isPrefix_within hn depth).subset
  refine ⟨hlists, ?_, fun i hi ↦ ?_, fun i k hi ↦ ?_, fun i k hi hdist hk ↦ ?_,
    fun i hi _ ↦ hselection.restrictedAround hi⟩
  · rw [← hseeds, map_getD_filterMap_idxOf?]
    exact List.filter_eq_self.mpr fun s hmem ↦ decide_eq_true (hshown s hmem)
  · exact exists_atDistance (mem_of_idxOf?_eq_some (hselection.idxOf?_getD hi))
  · rw [← hseeds]
    exact atDistance_restrict_iff (hselection.idxOf?_getD hi)
  · refine (hselection.restrictedAround hi).sameAround hi fun y hy ↦ ?_
    rw [hselection.map_getD_handles]
    exact hdist.mem_within_of_mem_adjacent hk hy

/-- **Interior types keep their surroundings, and types at the rim keep those that are shown.**
Around an issued handle the extraction succeeds.  A type of it that is nearer to the given one than
the bound has the neighbours, the relations from it and the relations to it that it has in the
diagram, in the same order.  For a type at the bound these are the ones of the diagram as far as
they stay among the types of the extraction, again in the same order.  There are no other types in
the extraction.  The same is true of a name that some type has, with the distances from all types of
that name. -/
theorem Reachable.surroundings_kept (hd : d.Reachable) :
    (∀ seed depth, d.issued seed = true →
      ∃ part, d.neighbourhood seed depth = .ok part ∧
        ∃ f, part.value.KeepsSurroundings d [seed] depth f) ∧
    ∀ name depth, (∃ x decl, d.decl? x = some decl ∧ decl.name = name) →
      ∃ part, d.focus name depth = .ok part ∧
        ∃ f, part.value.KeepsSurroundings d (d.handlesNamed name) depth f :=
  forall_extraction (P := fun seeds depth part ↦ ∃ f, part.KeepsSurroundings d seeds depth f)
    fun _ depth hn hs ↦ ⟨_, hd.wellFormed.keepsSurroundings_extract hn hs depth⟩

/-- At the bound one, the seed `0` is all of the interior.  The type `2` is at the rim, and of its
neighbours `0, 2, 3, 1` the third one is not shown. -/
theorem surroundings_kept_tangle :
    let d := History.tangle.diagram
    d.Reachable ∧
    (d.issued 0 = true ∧
      ∃ part f, d.neighbourhood 0 1 = .ok part ∧ part.value.KeepsSurroundings d [0] 1 f ∧
        part.value.handles.map f = [0, 1, 2] ∧
        (part.value.issued 0 = true ∧ d.AtDistance [0] 0 (f 0) ∧ part.value.SameAround d f 0) ∧
        (part.value.issued 2 = true ∧ d.AtDistance [0] 1 (f 2) ∧
          part.value.RestrictedAround d f 2) ∧
        (part.value.neighbours 2).map f = [0, 2, 1] ∧ d.neighbours (f 2) = [0, 2, 3, 1]) ∧
    (∃ x decl, d.decl? x = some decl ∧ decl.name = "A") ∧
    ∃ part f, d.focus "A" 1 = .ok part ∧
      part.value.KeepsSurroundings d (d.handlesNamed "A") 1 f := by
  intro d
  have hd : d.Reachable := ⟨History.tangle, rfl⟩
  have hseed : d.issued 0 = true := by decide
  have hname : ∃ x decl, d.decl? x = some decl ∧ decl.name = "A" := ⟨3, .named "A" "", rfl, rfl⟩
  have h : _ ∧ _ := hd.surroundings_kept
  obtain ⟨part, hpart, f, hkeeps⟩ := h.1 0 1 hseed
  obtain ⟨named, hnamed, g, hkeepsNamed⟩ := h.2 "A" 1 hname
  obtain ⟨-, rfl⟩ := neighbourhood_eq_ok_iff.mp hpart
  have hhandles : (d.extract [0] 1).value.handles.map f = [0, 1, 2] := by
    rw [hkeeps.lists.handles]
    decide +kernel
  have hnumbers : (d.extract [0] 1).value.handles = [0, 1, 2] := by decide +kernel
  obtain ⟨hzero, -, htwo⟩ : f 0 = 0 ∧ f 1 = 1 ∧ f 2 = 2 := by simpa [hnumbers] using hhandles
  have hinside : (d.extract [0] 1).value.issued 0 = true := by decide +kernel
  have hrim : (d.extract [0] 1).value.issued 2 = true := by decide +kernel
  have hnear : d.AtDistance [0] 0 (f 0) := by
    rw [hzero, ← mem_sphere_iff]
    decide +kernel
  have hfar : d.AtDistance [0] 1 (f 2) := by
    rw [htwo, ← mem_sphere_iff]
    decide +kernel
  have hrestricted := hkeeps.rim 2 hrim hfar
  refine ⟨hd, ⟨hseed, _, f, hpart, hkeeps, hhandles,
    ⟨hinside, hnear, hkeeps.interior 0 0 hinside hnear Nat.one_pos⟩, ⟨hrim, hfar, hrestricted⟩,
    ?_, ?_⟩, hname, named, g, hnamed, hkeepsNamed⟩
  · rw [hrestricted.neighbours, hhandles, htwo]
    decide +kernel
  · rw [htwo]
    decide +kernel

end Diagram
end TypeDiagram
