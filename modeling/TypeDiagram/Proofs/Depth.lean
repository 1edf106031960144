import TypeDiagram.Proofs.Induced

/-!
# Looking further

An extraction with a larger bound looks further.  This file compares extractions around the same
types at different bounds, and an extraction with those that start from the types it shows.

The larger bound changes nothing about what the smaller one shows.  The search with the larger bound
goes on where the other one stops, so the order of discovery gets longer at its end only
(`Diagram.ball_isPrefix`).  A type that is shown at both bounds therefore has one handle in both
parts, and a relation between two such types is the same relation in both.

And a larger bound can be reached in two steps.  What is shown at the bound `m + n` is what is shown
at the bound `n` around one of the types that are shown at the bound `m`
(`Diagram.mem_within_add_iff`).

The first of these needs more than that the smaller part is contained in the larger one.  Handles
are places in the order of discovery, so a single new type among the first ones would renumber all
that come after it.  The second one is about sets of types alone.  The several searches at the bound
`n` find types repeatedly and in other orders, and nothing is said about these orders.

## What is here

* `idxOf?_eq_some_iff_of_isPrefix` — a renumbering by the beginning of a list gives the same numbers
  as the one by the whole list, as far as they go.
* `Diagram.BeginningOf` — the smaller diagram is what the larger one is up to some handle, and
  `Diagram.Selection.beginningOf` — the beginning of a selection gives the beginning of a part.
-/

set_option autoImplicit false

namespace TypeDiagram

/-! ## Renumbering by the beginning of a list -/

section Prefix

variable {inner order : List Nat}

/-- In the beginning of a list, the numbers are the same as in the list. -/
theorem idxOf?_eq_some_iff_of_isPrefix (h : inner <+: order) {x i : Nat} :
    inner.idxOf? x = some i ↔ order.idxOf? x = some i ∧ i < inner.length := by
  obtain ⟨rest, rfl⟩ := h
  by_cases hx : x ∈ inner
  · have hlt : inner.idxOf x < inner.length := List.idxOf_lt_length_of_mem hx
    simp only [idxOf?_eq_some_iff_mem, List.mem_append, List.idxOf_append_of_mem hx, hx, true_or,
      true_and]
    exact ⟨fun hi ↦ ⟨hi, hi ▸ hlt⟩, fun hi ↦ hi.1⟩
  · have hlate : inner.length ≤ (inner ++ rest).idxOf x := by
      rw [List.idxOf_append_of_notMem hx]
      omega
    simp only [idxOf?_eq_some_iff_mem, hx, false_and, false_iff]
    rintro ⟨⟨-, rfl⟩, hlt⟩
    omega

/-- Renumbering by the beginning of a list keeps the relations between the first handles. -/
theorem Relation.renumber_of_isPrefix (h : inner <+: order) (r : Relation) :
    r.renumber inner =
      (r.renumber order).filter fun s ↦ s.source < inner.length ∧ s.target < inner.length := by
  refine Option.ext fun s ↦ ?_
  rw [Option.filter_eq_some_iff, renumber_eq_some_iff, renumber_eq_some_iff,
    idxOf?_eq_some_iff_of_isPrefix h, idxOf?_eq_some_iff_of_isPrefix h, decide_eq_true_eq]
  tauto

end Prefix

namespace Diagram

/-! ## The beginning of a diagram -/

/-- The smaller diagram consists of the first types of the larger one, and of the relations between
these. -/
structure BeginningOf (small large : Diagram) : Prop where
  /-- The types are the first types of the larger diagram. -/
  decls : small.decls <+: large.decls
  /-- A handle of the smaller diagram has the same type in the larger one. -/
  decl : ∀ i, small.issued i = true → large.decl? i = small.decl? i
  /-- The relations are those of the larger diagram between these types, in the same order. -/
  relations : small.relations = large.relations.filter fun r ↦
    r.source < small.decls.length ∧ r.target < small.decls.length

variable {d : Diagram} {seeds : List Nat}

/-- **The beginning of a selection gives the beginning of a part.** -/
theorem Selection.beginningOf {inner order : List Nat} (hinner : d.Selection inner)
    (h : inner <+: order) : (d.restrict inner).BeginningOf (d.restrict order) := by
  have hdecls : (d.restrict inner).decls <+: (d.restrict order).decls := h.filterMap d.decl?
  refine ⟨hdecls, fun i hi ↦ ?_, ?_⟩
  · have hlt : i < (d.restrict inner).decls.length := of_decide_eq_true hi
    rw [Diagram.decl?, Diagram.decl?, List.prefix_iff_getElem?.mp hdecls i hlt,
      List.getElem?_eq_getElem hlt]
  · rw [hinner.length_restrict, restrict, restrict, List.filter_filterMap]
    exact List.filterMap_congr fun r _ ↦ r.renumber_of_isPrefix h

/-- At a larger bound, the search goes on where it stopped. -/
theorem within_isPrefix (d : Diagram) (seeds : List Nat) {m n : Nat} (h : m ≤ n) :
    d.within seeds m <+: d.within seeds n := by
  rw [within_eq_ball, within_eq_ball]
  exact ball_isPrefix h

/-- **What a smaller bound shows is the beginning of what a larger one shows**, and a handle stands
for the same handle of the diagram in both. -/
theorem WellFormed.extract_beginningOf (hd : d.WellFormed) (hs : ∀ s ∈ seeds, d.issued s = true)
    {m n : Nat} (h : m ≤ n) :
    (d.extract seeds m).value.BeginningOf (d.extract seeds n).value ∧
      ∃ f, (d.extract seeds m).value.InducedAlong d f ∧
        (d.extract seeds n).value.InducedAlong d f := by
  have hsmall := hd.selection_within hs m
  have hlarge := hd.selection_within hs n
  have hprefix := d.within_isPrefix seeds h
  refine ⟨hsmall.beginningOf hprefix, _, (hsmall.inducedAlong hd).congr fun i hi ↦ ?_,
    hlarge.inducedAlong hd⟩
  have hlt : i < (d.within seeds m).length := by
    rw [← hsmall.length_restrict]
    exact of_decide_eq_true hi
  simp [List.prefix_iff_getElem?.mp hprefix i hlt, List.getElem?_eq_getElem hlt]

/-- **A larger bound adds at the end.**  Extract twice around an issued handle, at a smaller and at
a larger bound.  Both extractions succeed.  The types at the smaller bound are the first ones of
those at the larger bound, and the relations at the smaller bound are those at the larger bound
whose ends are both among these types, in the same order.  There is one map to the handles of the
diagram along which both parts are induced, so a handle of the smaller part stands for the same type
in the larger one.  The same is true of a name that some type has. -/
theorem Reachable.extraction_extends (hd : d.Reachable) {m n : Nat} (hmn : m ≤ n) :
    (∀ seed, d.issued seed = true →
      ∃ small large, d.neighbourhood seed m = .ok small ∧ d.neighbourhood seed n = .ok large ∧
        small.value.BeginningOf large.value ∧
        ∃ f, small.value.InducedAlong d f ∧ large.value.InducedAlong d f) ∧
    ∀ name, (∃ x decl, d.decl? x = some decl ∧ decl.name = name) →
      ∃ small large, d.focus name m = .ok small ∧ d.focus name n = .ok large ∧
        small.value.BeginningOf large.value ∧
        ∃ f, small.value.InducedAlong d f ∧ large.value.InducedAlong d f := by
  refine forall_extractions (P := fun _ view ↦ ∃ small large, view m = .ok small ∧
    view n = .ok large ∧ small.value.BeginningOf large.value ∧
    ∃ f, small.value.InducedAlong d f ∧ large.value.InducedAlong d f) fun seeds _ hs ↦ ?_
  exact ⟨_, _, rfl, rfl, hd.wellFormed.extract_beginningOf hs hmn⟩

theorem extraction_extends_tangle :
    let d := History.tangle.diagram
    d.Reachable ∧ 1 ≤ 2 ∧
    (d.issued 1 = true ∧
      ∃ small large, d.neighbourhood 1 1 = .ok small ∧ d.neighbourhood 1 2 = .ok large ∧
        small.value.BeginningOf large.value ∧
        ∃ f, small.value.InducedAlong d f ∧ large.value.InducedAlong d f) ∧
    (∃ x decl, d.decl? x = some decl ∧ decl.name = "B") ∧
    ∃ small large, d.focus "B" 1 = .ok small ∧ d.focus "B" 2 = .ok large ∧
      small.value.BeginningOf large.value ∧
      ∃ f, small.value.InducedAlong d f ∧ large.value.InducedAlong d f := by
  intro d
  have hd : d.Reachable := ⟨History.tangle, rfl⟩
  have hseed : d.issued 1 = true := by decide
  have hname : ∃ x decl, d.decl? x = some decl ∧ decl.name = "B" := ⟨1, .named "B" "", rfl, rfl⟩
  have hbound : 1 ≤ 2 := by decide
  have h : _ ∧ _ := hd.extraction_extends hbound
  exact ⟨hd, hbound, ⟨hseed, h.1 1 hseed⟩, hname, h.2 "B" hname⟩

/-! ## Bounds add up -/

/-- **What is shown at the sum of two bounds** is shown, at the second one, around a type that is
shown at the first one. -/
theorem mem_within_add_iff {m n x : Nat} :
    x ∈ d.within seeds (m + n) ↔ ∃ v ∈ d.within seeds m, x ∈ d.within [v] n := by
  simp only [mem_within_iff, List.mem_singleton, exists_eq_left, near_add_iff]
  refine ⟨?_, ?_⟩
  · rintro ⟨s, hs, v, hsv, hvx⟩
    exact ⟨v, ⟨s, hs, hsv⟩, hvx⟩
  · rintro ⟨v, ⟨s, hs, hsv⟩, hvx⟩
    exact ⟨s, hs, v, hsv, hvx⟩

/-- **Bounds add up.**  Look around an issued handle at the bound `m`, and then around each of the
types that are shown, at the bound `n`.  All these neighbourhoods are there, and so is the one
around the handle at the bound `m + n`; the handles of each of them stand for what the search finds.
Together they show the same types as the one at the bound `m + n`. -/
theorem Reachable.bounds_add (hd : d.Reachable) {seed : Nat} (hseed : d.issued seed = true)
    (m n : Nat) :
    (∃ part, d.neighbourhood seed m = .ok part ∧
      ∃ f, part.value.Lists d (d.within [seed] m) f) ∧
    (∃ part, d.neighbourhood seed (m + n) = .ok part ∧
      ∃ f, part.value.Lists d (d.within [seed] (m + n)) f) ∧
    (∀ v ∈ d.within [seed] m, ∃ part, d.neighbourhood v n = .ok part ∧
      ∃ f, part.value.Lists d (d.within [v] n) f) ∧
    ∀ x, x ∈ d.within [seed] (m + n) ↔ ∃ v ∈ d.within [seed] m, x ∈ d.within [v] n := by
  have hwf := hd.wellFormed
  have hs : ∀ s ∈ [seed], d.issued s = true := List.forall_mem_singleton.mpr hseed
  obtain ⟨hlists, -⟩ := forall_extraction (d := d)
    (P := fun seeds depth part ↦ ∃ f, part.Lists d (d.within seeds depth) f)
    fun seeds depth _ hs ↦ ⟨_, hwf.lists_extract hs depth⟩
  refine ⟨hlists seed m hseed, hlists seed (m + n) hseed, fun v hv ↦ ?_, fun x ↦ ?_⟩
  · exact hlists v n ((hwf.selection_within hs m).issued v hv)
  · exact mem_within_add_iff

theorem bounds_add_tangle :
    let d := History.tangle.diagram
    d.Reachable ∧ d.issued 0 = true ∧
      (∃ part, d.neighbourhood 0 2 = .ok part ∧ ∃ f, part.value.Lists d (d.within [0] 2) f) ∧
      (2 ∈ d.within [0] 1 ∧
        ∃ part, d.neighbourhood 2 1 = .ok part ∧ ∃ f, part.value.Lists d (d.within [2] 1) f) ∧
      3 ∉ d.within [0] 1 ∧
      (3 ∈ d.within [0] 2 ↔ ∃ v ∈ d.within [0] 1, 3 ∈ d.within [v] 1) := by
  intro d
  have hd : d.Reachable := ⟨History.tangle, rfl⟩
  have hseed : d.issued 0 = true := by decide
  have hfound : 2 ∈ d.within [0] 1 := by decide +kernel
  obtain ⟨-, hsum, haround, hunion⟩ := hd.bounds_add hseed 1 1
  exact ⟨hd, hseed, hsum, ⟨hfound, haround 2 hfound⟩, by decide +kernel, hunion 3⟩

end Diagram
end TypeDiagram
