import TypeDiagram.Proofs.Renaming
import Mathlib.Data.ENat.Lattice
import Mathlib.Data.List.Perm.Subperm

/-!
# What an extraction cannot see

An extraction shows the types within a bound.  When the diagram grows, the extraction stays as it
was if the growth is too far away.  This file says exactly how far that is.

A new type is never seen, as long as it is no seed: no relation leads there.  A new relation is seen
in two cases.  Either the search crosses it, which needs an end at a distance below the bound; or
the search finds both ends without it.  So the relation stays unseen exactly when it lies
`Diagram.Beyond` the horizon: both ends are at the bound or further away, and one of them is further
away.

## What is here

* `Diagram.distance` — the distance of a type from some seeds, which is infinite if no walk leads to
  the type.  `Diagram.le_distance_iff` and `Diagram.lt_distance_iff` read it off the balls.
* `Diagram.layers_withRelation` — a search that reaches no end of the relation before its last layer
  finds the same types in the same order.
* `Diagram.ball_subset_withRelation` — a search never loses a type by a new relation.  So an
  extraction with the same number of types shows the same types, and one with the same number of
  relations does not show the new one.
* `Diagram.WellFormed.extract_withRelation_iff` — **the new relation is unseen exactly when it is
  beyond the horizon**.

## The two directions

That a relation beyond the horizon is not seen needs both searches to find the same types in the
same order.  They are compared layer by layer, and an end in the last layer does no harm, because
nothing behind it is looked at.  The other direction is shown by counting.  If the search crosses
the relation, or has both of its ends, then the new extraction has more types or more relations than
the old one.  Which ones these are, and where they stand, depends on all of the diagram and need not
be known.

Distances are those before the addition, since the relation itself may bring types nearer.
-/

set_option autoImplicit false

namespace TypeDiagram
namespace Diagram

/-! ## Distances -/

/-- The length of a shortest walk from the seeds to the type, infinite if there is none. -/
noncomputable def distance (d : Diagram) (seeds : List Nat) (x : Nat) : ℕ∞ :=
  ⨅ (n : Nat) (_ : ∃ s ∈ seeds, d.Walk s n x), (n : ℕ∞)

variable {d : Diagram} {seeds : List Nat}

theorem le_distance_iff {k x : Nat} :
    (k : ℕ∞) ≤ d.distance seeds x ↔ ∀ j < k, x ∉ d.ball seeds j := by
  rw [distance, le_iInf₂_iff]
  simp only [Nat.cast_le, mem_ball_iff]
  refine ⟨?_, ?_⟩
  · rintro h j hj ⟨s, hs, n, hn, hwalk⟩
    have hk := h n ⟨s, hs, hwalk⟩
    omega
  · rintro h n ⟨s, hs, hwalk⟩
    refine Nat.le_of_not_lt fun hlt ↦ ?_
    exact h n hlt ⟨s, hs, n, Nat.le_refl n, hwalk⟩

theorem lt_distance_iff {k x : Nat} :
    (k : ℕ∞) < d.distance seeds x ↔ x ∉ d.ball seeds k := by
  rw [← ENat.add_one_le_iff (ENat.natCast_ne_top k), ← Nat.cast_succ, le_distance_iff]
  refine ⟨fun h ↦ h k (Nat.lt_succ_self k), fun h j hj hx ↦ h ?_⟩
  exact (ball_isPrefix (Nat.le_of_lt_succ hj)).subset hx

/-- The relation is too far from the seeds to be seen at the bound: both of its ends are at the
bound or further away, and one of them is further away. -/
def Beyond (d : Diagram) (seeds : List Nat) (depth : Nat) (r : Relation) : Prop :=
  (depth : ℕ∞) ≤ d.distance seeds r.source ∧ (depth : ℕ∞) ≤ d.distance seeds r.target ∧
    ((depth : ℕ∞) < d.distance seeds r.source ∨ (depth : ℕ∞) < d.distance seeds r.target)

/-- The same, in terms of balls. -/
theorem beyond_iff {depth : Nat} {r : Relation} :
    d.Beyond seeds depth r ↔
      (∀ j < depth, r.source ∉ d.ball seeds j ∧ r.target ∉ d.ball seeds j) ∧
        ¬(r.source ∈ d.ball seeds depth ∧ r.target ∈ d.ball seeds depth) := by
  rw [Beyond, le_distance_iff, le_distance_iff, lt_distance_iff, lt_distance_iff, ← and_assoc,
    not_and_or]
  refine and_congr_left fun _ ↦ ⟨fun h j hj ↦ ⟨h.1 j hj, h.2 j hj⟩, fun h ↦ ⟨?_, ?_⟩⟩
  · exact fun j hj ↦ (h j hj).1
  · exact fun j hj ↦ (h j hj).2

/-! ## One more relation -/

/-- The diagram with one more relation at the end. -/
def withRelation (d : Diagram) (r : Relation) : Diagram :=
  { d with relations := d.relations ++ [r] }

variable {r : Relation}

theorem addRelation_of_not_mem (hs : d.issued r.source = true) (ht : d.issued r.target = true)
    (hr : r ∉ d.relations) : d.addRelation r = .ok (d.withRelation r) :=
  addRelation_eq_ok_iff.mpr ⟨hs, ht, (if_neg hr).symm⟩

theorem WellFormed.withRelation (hd : d.WellFormed) (hs : d.issued r.source = true)
    (ht : d.issued r.target = true) (hr : r ∉ d.relations) : (d.withRelation r).WellFormed :=
  hd.append hs ht hr

/-- Types other than the two ends have the same neighbours. -/
theorem adjacent_withRelation {x : Nat} (hs : r.source ≠ x) (ht : r.target ≠ x) :
    (d.withRelation r).adjacent x = d.adjacent x := by
  have hfrom : (d.withRelation r).relationsFrom x = d.relationsFrom x := by
    simp [relationsFrom, withRelation, hs]
  have hto : (d.withRelation r).relationsTo x = d.relationsTo x := by
    simp [relationsTo, withRelation, ht]
  simp only [adjacent, successors, predecessors, hfrom, hto]

theorem mem_adjacent_withRelation {x y : Nat} :
    y ∈ (d.withRelation r).adjacent x ↔
      y ∈ d.adjacent x ∨ (r.source = x ∧ r.target = y) ∨ (r.source = y ∧ r.target = x) := by
  simp only [mem_adjacent, withRelation, List.mem_append, List.mem_singleton, or_and_right,
    exists_or, exists_eq_left]

/-- **A search never loses a type by a new relation.** -/
theorem ball_subset_withRelation (d : Diagram) (r : Relation) (seeds : List Nat) (k : Nat) :
    d.ball seeds k ⊆ (d.withRelation r).ball seeds k := by
  induction k with
  | zero => exact List.Subset.refl _
  | succ k ih =>
    intro x hx
    rcases mem_ball_succ.mp hx with hx | ⟨y, hy, hxy⟩
    · exact mem_ball_succ.mpr (.inl (ih hx))
    · exact mem_ball_succ.mpr (.inr ⟨y, ih hy, mem_adjacent_withRelation.mpr (.inl hxy)⟩)

/-- **A search that reaches no end of the relation before its last layer does not notice it.** -/
theorem layers_withRelation {k : Nat}
    (h : ∀ j < k, r.source ∉ d.ball seeds j ∧ r.target ∉ d.ball seeds j) :
    (d.withRelation r).ball seeds k = d.ball seeds k ∧
      (d.withRelation r).sphere seeds k = d.sphere seeds k := by
  induction k with
  | zero => exact ⟨rfl, rfl⟩
  | succ k ih =>
    obtain ⟨hball, hsphere⟩ := ih fun j hj ↦ h j (Nat.lt_succ_of_lt hj)
    obtain ⟨hsource, htarget⟩ := h k (Nat.lt_succ_self k)
    have hadjacent : (d.sphere seeds k).flatMap (d.withRelation r).adjacent =
        (d.sphere seeds k).flatMap d.adjacent := by
      refine List.flatMap_congr fun x hx ↦ adjacent_withRelation ?_ ?_
      · exact fun heq ↦ hsource (heq ▸ sphere_subset_ball k hx)
      · exact fun heq ↦ htarget (heq ▸ sphere_subset_ball k hx)
    have hnext : (d.withRelation r).sphere seeds (k + 1) = d.sphere seeds (k + 1) := by
      rw [sphere_succ, sphere_succ, hball, hsphere, hadjacent]
    refine ⟨?_, hnext⟩
    rw [ball_succ, ball_succ, hball, hnext]

/-- If one end is at a distance below the bound, then the search crosses the relation and finds
both. -/
theorem mem_ball_withRelation {j depth : Nat} (hj : j < depth)
    (h : r.source ∈ d.ball seeds j ∨ r.target ∈ d.ball seeds j) :
    r.source ∈ (d.withRelation r).ball seeds depth ∧
      r.target ∈ (d.withRelation r).ball seeds depth := by
  have hnear : ∀ x ∈ d.ball seeds j, x ∈ (d.withRelation r).ball seeds depth := fun x hx ↦
    (ball_isPrefix (Nat.le_of_lt hj)).subset (ball_subset_withRelation d r seeds j hx)
  have hcross : ∀ x ∈ d.ball seeds j, ∀ y ∈ (d.withRelation r).adjacent x,
      y ∈ (d.withRelation r).ball seeds depth := fun x hx y hy ↦
    (ball_isPrefix hj).subset
      (mem_ball_succ.mpr (.inr ⟨x, ball_subset_withRelation d r seeds j hx, hy⟩))
  rcases h with h | h
  · exact ⟨hnear _ h, hcross _ h _ (mem_adjacent_withRelation.mpr (.inr (.inl ⟨rfl, rfl⟩)))⟩
  · exact ⟨hcross _ h _ (mem_adjacent_withRelation.mpr (.inr (.inr ⟨rfl, rfl⟩))), hnear _ h⟩

/-! ## Parts of the larger diagram -/

/-- A part that lacks an end of the relation is the same without it. -/
theorem restrict_withRelation {order : List Nat} (h : ¬(r.source ∈ order ∧ r.target ∈ order)) :
    (d.withRelation r).restrict order = d.restrict order := by
  have hnone : r.renumber order = none := by
    rw [Relation.renumber_eq_ite, if_neg h]
  show Diagram.mk _ ((d.relations ++ [r]).filterMap _) = Diagram.mk _ _
  rw [List.filterMap_append, List.filterMap_cons_none hnone, List.filterMap_nil, List.append_nil]
  rfl

theorem length_relations_restrict (d : Diagram) (order : List Nat) :
    (d.restrict order).relations.length =
      d.relations.countP fun r ↦ r.source ∈ order ∧ r.target ∈ order := by
  rw [relations_restrict, List.length_map, List.countP_eq_length_filter]

/-- A part with both ends of the relation has one relation more than without it. -/
theorem length_restrict_withRelation {order order' : List Nat} (hmem : order.Perm order')
    (h : r.source ∈ order' ∧ r.target ∈ order') :
    ((d.withRelation r).restrict order').relations.length =
      (d.restrict order).relations.length + 1 := by
  have hone : [r].countP (fun r ↦ r.source ∈ order' ∧ r.target ∈ order') = 1 :=
    List.countP_eq_length.mpr (List.forall_mem_singleton.mpr (decide_eq_true h))
  simp only [length_relations_restrict, withRelation, List.countP_append, hone, hmem.mem_iff]

/-- **A new relation is unseen exactly when it is beyond the horizon.** -/
theorem WellFormed.extract_withRelation_iff (hd : d.WellFormed) (hs : d.issued r.source = true)
    (ht : d.issued r.target = true) (hr : r ∉ d.relations)
    (hseeds : ∀ s ∈ seeds, d.issued s = true) (depth : Nat) :
    ((d.withRelation r).extract seeds depth).value = (d.extract seeds depth).value ↔
      d.Beyond seeds depth r := by
  have hbefore := hd.selection_within hseeds depth
  have hafter := (hd.withRelation hs ht hr).selection_within hseeds depth
  rw [within_eq_ball] at hbefore hafter
  show (d.withRelation r).restrict ((d.withRelation r).within seeds depth) =
    d.restrict (d.within seeds depth) ↔ _
  rw [within_eq_ball, within_eq_ball, beyond_iff]
  refine ⟨fun heq ↦ ?_, fun ⟨hnear, hboth⟩ ↦ ?_⟩
  · -- as many types as before are the same types, since none was lost
    have hlength : ((d.withRelation r).ball seeds depth).length = (d.ball seeds depth).length := by
      rw [← hafter.length_restrict, ← hbefore.length_restrict, heq]
    have hperm : (d.ball seeds depth).Perm ((d.withRelation r).ball seeds depth) :=
      (List.subperm_of_subset hbefore.nodup
        (ball_subset_withRelation d r seeds depth)).perm_of_length_le (Nat.le_of_eq hlength)
    -- as many relations as before do not include the new one
    have hunseen : ¬(r.source ∈ (d.withRelation r).ball seeds depth ∧
        r.target ∈ (d.withRelation r).ball seeds depth) := by
      intro hseen
      have hmore := length_restrict_withRelation (d := d) hperm hseen
      rw [heq] at hmore
      exact Nat.succ_ne_self _ hmore.symm
    refine ⟨fun j hj ↦ ⟨fun h ↦ ?_, fun h ↦ ?_⟩, fun h ↦ hunseen ⟨?_, ?_⟩⟩
    · exact hunseen (mem_ball_withRelation hj (.inl h))
    · exact hunseen (mem_ball_withRelation hj (.inr h))
    · exact hperm.mem_iff.mp h.1
    · exact hperm.mem_iff.mp h.2
  · rw [(layers_withRelation hnear).1]
    exact restrict_withRelation hboth

/-! ## One more type -/

/-- A type of another name leaves the handles of a name as they are. -/
theorem handlesNamed_addDecl {name : String} {decl : Decl} (hname : decl.name ≠ name) :
    (d.addDecl decl).2.handlesNamed name = d.handlesNamed name := by
  rw [handlesNamed, d.handles_addDecl, List.filter_append]
  have hold : d.handles.filter
      (fun x ↦ ((d.addDecl decl).2.decl? x).any fun decl ↦ decl.name = name) =
        d.handlesNamed name := by
    refine List.filter_congr fun x hx ↦ ?_
    have hne : x ≠ (d.addDecl decl).1 := Nat.ne_of_lt (List.mem_range.mp hx)
    rw [d.decl?_addDecl, if_neg hne]
  have hnew : [(d.addDecl decl).1].filter
      (fun x ↦ ((d.addDecl decl).2.decl? x).any fun decl ↦ decl.name = name) = [] := by
    rw [List.filter_eq_nil_iff]
    simp [d.decl?_addDecl, hname]
  rw [hold, hnew, List.append_nil]

theorem WellFormed.extract_addDecl (hd : d.WellFormed) (hseeds : ∀ s ∈ seeds, d.issued s = true)
    (decl : Decl) (depth : Nat) :
    ((d.addDecl decl).2.extract seeds depth).value = (d.extract seeds depth).value := by
  have h := (d.renames_addDecl decl).extract hd hseeds depth
  rwa [List.map_id] at h

/-! ## Extraction is local -/

theorem map_value_neighbourhood {seed : Nat} (h : d.issued seed = true) (depth : Nat) :
    (d.neighbourhood seed depth).map Logged.value = .ok (d.extract [seed] depth).value := by
  rw [neighbourhood_eq_ok_iff.mpr ⟨h, rfl⟩]
  rfl

theorem map_value_focus {name : String} (h : d.handlesNamed name ≠ []) (depth : Nat) :
    (d.focus name depth).map Logged.value = .ok (d.extract (d.handlesNamed name) depth).value := by
  rw [focus_eq_ok_iff.mpr ⟨h, rfl⟩]
  rfl

theorem map_value_focus_of_eq_nil {name : String} (h : d.handlesNamed name = []) (depth : Nat) :
    (d.focus name depth).map Logged.value = .error (.typeNotFound name) := by
  rw [focus, h]
  rfl

/-- Without seeds, nothing is shown. -/
theorem value_extract_nil (d : Diagram) (depth : Nat) : (d.extract [] depth).value = ⟨[], []⟩ := by
  have hball : d.ball [] depth = [] :=
    List.eq_nil_iff_forall_not_mem.mpr fun x hx ↦ by simpa using mem_ball_iff.mp hx
  show d.restrict (d.within [] depth) = ⟨[], []⟩
  rw [within_eq_ball, hball, restrict, Diagram.mk.injEq]
  exact ⟨rfl, List.filterMap_eq_nil_iff.mpr fun r _ ↦ rfl⟩

/-- Two diagrams that both have the seed look the same around it if the extractions agree. -/
theorem map_value_neighbourhood_eq_iff {e : Diagram} {seed : Nat} (hd : d.issued seed = true)
    (he : e.issued seed = true) (depth : Nat) :
    (e.neighbourhood seed depth).map Logged.value =
        (d.neighbourhood seed depth).map Logged.value ↔
      (e.extract [seed] depth).value = (d.extract [seed] depth).value := by
  rw [map_value_neighbourhood hd, map_value_neighbourhood he, Except.ok.injEq]

/-- The same around a name that stands for the same handles in both.  It may stand for none: then
both refuse, for the same reason, and there is nothing to extract. -/
theorem map_value_focus_eq_iff {e : Diagram} {name : String}
    (hnamed : e.handlesNamed name = d.handlesNamed name) (depth : Nat) :
    (e.focus name depth).map Logged.value = (d.focus name depth).map Logged.value ↔
      (e.extract (d.handlesNamed name) depth).value =
        (d.extract (d.handlesNamed name) depth).value := by
  by_cases hnil : d.handlesNamed name = []
  · rw [map_value_focus_of_eq_nil hnil, map_value_focus_of_eq_nil (hnamed.trans hnil), hnil,
      value_extract_nil, value_extract_nil]
    exact iff_of_true rfl rfl
  · have hsome : e.handlesNamed name ≠ [] := hnamed ▸ hnil
    rw [map_value_focus hnil, map_value_focus hsome, hnamed, Except.ok.injEq]

/-- **Extraction is local.**  Look at the part around an issued handle, which is always there.
Adding a type does not change it.  Adding a relation that is not there yet, between issued handles,
leaves it as it is if and only if the relation is beyond the horizon: with the distances before the
addition, both ends are at the bound or further away and one of them is further away.  The same is
true of the part around a name, with the distances from all types of that name, if an added type has
another name. -/
theorem Reachable.extraction_local (hd : d.Reachable) :
    (∀ seed depth, d.issued seed = true →
      let view (d : Diagram) := (d.neighbourhood seed depth).map Logged.value
      (∃ part, view d = .ok part) ∧
      (∀ decl, view (d.addDecl decl).2 = view d) ∧
      ∀ r, d.issued r.source = true → d.issued r.target = true → r ∉ d.relations →
        ∃ e, d.addRelation r = .ok e ∧ (view e = view d ↔ d.Beyond [seed] depth r)) ∧
    ∀ name depth,
      let view (d : Diagram) := (d.focus name depth).map Logged.value
      ((∃ x decl, d.decl? x = some decl ∧ decl.name = name) → ∃ part, view d = .ok part) ∧
      (∀ decl, decl.name ≠ name → view (d.addDecl decl).2 = view d) ∧
      ∀ r, d.issued r.source = true → d.issued r.target = true → r ∉ d.relations →
        ∃ e, d.addRelation r = .ok e ∧
          (view e = view d ↔ d.Beyond (d.handlesNamed name) depth r) := by
  have hwf := hd.wellFormed
  have hnamed : ∀ name, ∀ s ∈ d.handlesNamed name, d.issued s = true := fun name s ↦
    issued_of_mem_handlesNamed
  refine ⟨fun seed depth hseed ↦ ?_, fun name depth ↦ ⟨fun hname ↦ ?_, fun decl hname ↦ ?_,
    fun r hs ht hr ↦ ⟨_, addRelation_of_not_mem hs ht hr, ?_⟩⟩⟩
  · have hseeds : ∀ s ∈ [seed], d.issued s = true := List.forall_mem_singleton.mpr hseed
    refine ⟨⟨_, map_value_neighbourhood hseed depth⟩, fun decl ↦ ?_,
      fun r hs ht hr ↦ ⟨_, addRelation_of_not_mem hs ht hr, ?_⟩⟩
    · exact (map_value_neighbourhood_eq_iff hseed (issued_addDecl hseed decl) depth).mpr
        (hwf.extract_addDecl hseeds decl depth)
    · have hstill : (d.withRelation r).issued seed = true := hseed
      exact (map_value_neighbourhood_eq_iff hseed hstill depth).trans
        (hwf.extract_withRelation_iff hs ht hr hseeds depth)
  · exact ⟨_, map_value_focus (handlesNamed_ne_nil_iff.mpr hname) depth⟩
  · exact (map_value_focus_eq_iff (handlesNamed_addDecl hname) depth).mpr
      (hwf.extract_addDecl (hnamed name) decl depth)
  · have hstill : (d.withRelation r).handlesNamed name = d.handlesNamed name := rfl
    exact (map_value_focus_eq_iff hstill depth).trans
      (hwf.extract_withRelation_iff hs ht hr (hnamed name) depth)

theorem extraction_local_tangle :
    let d := History.tangle.diagram
    let r : Relation := ⟨3, 0, .encapsulates⟩
    let view (depth : Nat) (d : Diagram) := (d.neighbourhood 1 depth).map Logged.value
    let named (d : Diagram) := (d.focus "B" 1).map Logged.value
    d.Reachable ∧ d.issued 1 = true ∧ d.issued r.source = true ∧ d.issued r.target = true ∧
    r ∉ d.relations ∧ (Decl.named "E" "").name ≠ "B" ∧
    (view 1 (d.addDecl (.named "E" "")).2 = view 1 d ∧
      named (d.addDecl (.named "E" "")).2 = named d) ∧
    (∃ e, d.addRelation r = .ok e ∧
      (view 1 e = view 1 d ↔ d.Beyond [1] 1 r) ∧ view 1 e = view 1 d) ∧
    (∃ e, d.addRelation r = .ok e ∧
      (view 2 e = view 2 d ↔ d.Beyond [1] 2 r) ∧ view 2 e ≠ view 2 d) ∧
    ∃ e, d.addRelation r = .ok e ∧ (named e = named d ↔ d.Beyond (d.handlesNamed "B") 1 r) := by
  intro d r view named
  have hd : d.Reachable := ⟨History.tangle, rfl⟩
  have hseed : d.issued 1 = true := by decide
  have hs : d.issued r.source = true := by decide
  have ht : d.issued r.target = true := by decide
  have hr : r ∉ d.relations := by decide
  have hname : (Decl.named "E" "").name ≠ "B" := by decide
  have hadd : d.addRelation r = .ok (d.withRelation r) := addRelation_of_not_mem hs ht hr
  obtain ⟨haround, hnamed⟩ := hd.extraction_local
  have hbound : ∀ depth, view depth (d.withRelation r) = view depth d ↔ d.Beyond [1] depth r := by
    intro depth
    obtain ⟨-, -, hrelation⟩ := haround 1 depth hseed
    obtain ⟨e, he, hiff⟩ := hrelation r hs ht hr
    cases Except.ok.inj (hadd.symm.trans he)
    exact hiff
  obtain ⟨-, hdecl, -⟩ := haround 1 1 hseed
  obtain ⟨-, hdeclNamed, hrelationNamed⟩ := hnamed "B" 1
  exact ⟨hd, hseed, hs, ht, hr, hname, ⟨hdecl _, hdeclNamed _ hname⟩,
    ⟨_, hadd, hbound 1, by decide +kernel⟩, ⟨_, hadd, hbound 2, by decide +kernel⟩,
    hrelationNamed r hs ht hr⟩

end Diagram
end TypeDiagram
