import TypeDiagram.Proofs.Induced

/-!
# An inference looks at two types at a time

Whether an inference relates one type to another depends on these two types alone.  It does not
depend on the other types that take part, nor on the positions of the two.  So it makes no
difference when types are left out: before the inference, by a filter, or after it, by going over to
a part of the diagram.

## What is here

* `Diagram.InferredBy` — the relations of a diagram are what some settings ask for among its types.
  Every built diagram has this property, whatever its filters.
* `Diagram.InferredBy.perm_restrict` — a part of such a diagram has the relations that are asked for
  among its types, in some order.
* `Diagram.InferredBy.restrict` — if the part keeps the order of the types, then it has the property
  again: the relations also stand in the right order.
* `Inference.build_filter` — **a filter restricts the built diagram**.

## Orders

An inference lists relations by the positions of their ends (`Relation.Before`).  This is why the
order of the types decides about the order of the relations, and why there are two statements about
relations here, which differ in the order only.  A filter keeps the types in their order, so the
filtered diagram lists its relations in the order of the diagram without the filter.  An extraction
puts the types in the order of discovery; when a diagram is built again from these, its relations
come in the order of the new positions, while the extraction has them in the order of the old ones.
The two lists have the same members, each of them once, and in general there is nothing more to say.

That the second inference keeps all types of the part needs the filters to answer as they did the
first time.  They are functions of the type, so they do.
-/

set_option autoImplicit false

namespace TypeDiagram

/-! ## The order of relations -/

/-- The relation comes first by its source or, for the same source, by its target. -/
def Relation.Before (r s : Relation) : Prop :=
  r.source < s.source ∨ r.source = s.source ∧ r.target < s.target

theorem Relation.Before.asymm {r s : Relation} (h : r.Before s) : ¬s.Before r := by
  unfold Before at *
  omega

theorem Settings.pairwise_relations (s : Settings) (decls : List Decl) :
    (s.relations decls).Pairwise Relation.Before := by
  have h : (s.pairs decls).Pairwise (Prod.Lex (· < ·) (· < ·)) := pairwise_pairs
  rw [← map_relations, List.pairwise_map] at h
  exact h.imp fun hlex ↦ Prod.lex_def.mp hlex

/-- In an ascending list, larger handles stand further back. -/
theorem idxOf_lt_idxOf {order : List Nat} (hasc : order.Pairwise (· < ·)) {x y : Nat}
    (hx : x ∈ order) (hy : y ∈ order) (hxy : x < y) : order.idxOf x < order.idxOf y := by
  have hxlt := List.idxOf_lt_length_of_mem hx
  have hylt := List.idxOf_lt_length_of_mem hy
  rcases Nat.lt_trichotomy (order.idxOf x) (order.idxOf y) with h | h | h
  · exact h
  · exact absurd ((List.idxOf_inj hx).mp h) (Nat.ne_of_lt hxy)
  · have hyx := List.pairwise_iff_getElem.mp hasc _ _ hylt hxlt h
    rw [List.getElem_idxOf, List.getElem_idxOf] at hyx
    omega

/-- Moving relations to the places of an ascending list keeps their order. -/
theorem Relation.Before.along {order : List Nat} (hasc : order.Pairwise (· < ·)) {r s : Relation}
    (hr : r.source ∈ order ∧ r.target ∈ order) (hs : s.source ∈ order ∧ s.target ∈ order)
    (h : r.Before s) : (r.along order.idxOf).Before (s.along order.idxOf) := by
  rcases h with h | ⟨heq, h⟩
  · exact .inl (idxOf_lt_idxOf hasc hr.1 hs.1 h)
  · exact .inr ⟨congrArg order.idxOf heq, idxOf_lt_idxOf hasc hr.2 hs.2 h⟩

/-! ## Parts of inferred diagrams -/

namespace Diagram

/-- The relations are those that the settings ask for among the types, in lexicographic order. -/
def InferredBy (d : Diagram) (s : Settings) : Prop := d.relations = s.relations d.decls

theorem inferredBy_build (inference : Inference) (decls : List Decl) :
    (inference.build decls).value.InferredBy inference.settings := by
  rw [InferredBy, inference.build_value]

variable {s : Settings} {d : Diagram} {order : List Nat}

theorem InferredBy.eq_mk (hd : d.InferredBy s) : d = ⟨d.decls, s.relations d.decls⟩ := by
  rw [← hd]

/-- **Two types are related in a part as they are in the whole.** -/
theorem Selection.relates_restrict (h : d.Selection order) {x y i j : Nat}
    (hx : order.idxOf? x = some i) (hy : order.idxOf? y = some j) :
    s.Relates (d.restrict order).decls i j ↔ s.Relates d.decls x y := by
  have hsource : (d.restrict order).decls[i]? = d.decls[x]? := h.decl?_restrict hx
  have htarget : (d.restrict order).decls[j]? = d.decls[y]? := h.decl?_restrict hy
  rw [Settings.Relates, Settings.Relates, hsource, htarget, ne_eq, ne_eq, idxOf?_eq_iff hy hx]

/-- The relations of a part are those that the settings ask for among its types. -/
theorem InferredBy.mem_restrict_iff (hd : d.InferredBy s) (h : d.Selection order) {r : Relation} :
    r ∈ s.relations (d.restrict order).decls ↔ r ∈ (d.restrict order).relations := by
  rw [mem_relations_restrict, Settings.mem_relations_iff, hd]
  refine ⟨?_, ?_⟩
  · rintro ⟨hrelates, hkind⟩
    obtain ⟨hi, hj⟩ := hrelates.lt
    have hsource := h.idxOf?_getD (decide_eq_true hi)
    have htarget := h.idxOf?_getD (decide_eq_true hj)
    have hwhole := (h.relates_restrict hsource htarget).mp hrelates
    exact ⟨⟨_, _, .encapsulates⟩, Settings.mem_relations_iff.mpr ⟨hwhole, rfl⟩,
      Relation.renumber_eq_some_iff.mpr ⟨hsource, htarget, hkind.symm⟩⟩
  · rintro ⟨whole, hwhole, hr⟩
    obtain ⟨hsource, htarget, hkind⟩ := Relation.renumber_eq_some_iff.mp hr
    obtain ⟨hrelates, hwholeKind⟩ := Settings.mem_relations_iff.mp hwhole
    exact ⟨(h.relates_restrict hsource htarget).mpr hrelates, hkind.symm.trans hwholeKind⟩

/-- **A part has the relations that are asked for among its types**, in some order. -/
theorem InferredBy.perm_restrict (hd : d.InferredBy s) (h : d.Selection order) :
    (s.relations (d.restrict order).decls).Perm (d.restrict order).relations := by
  have hwhole : d.relations.Nodup := hd ▸ Settings.nodup_relations
  have hpart : (d.restrict order).relations.Nodup := nodup_relations_restrict hwhole order
  exact (List.perm_ext_iff_of_nodup Settings.nodup_relations hpart).mpr
    fun r ↦ hd.mem_restrict_iff h

/-- **A part that keeps the order of the types has the relations in the right order as well.** -/
theorem InferredBy.restrict (hd : d.InferredBy s) (h : d.Selection order)
    (hasc : order.Pairwise (· < ·)) : (d.restrict order).InferredBy s := by
  have hsorted : (d.restrict order).relations.Pairwise Relation.Before := by
    rw [relations_restrict, List.pairwise_map, hd]
    refine ((s.pairwise_relations d.decls).filter _).imp_of_mem fun hr hr' hbefore ↦ ?_
    have hends := of_decide_eq_true (List.mem_filter.mp hr).2
    have hends' := of_decide_eq_true (List.mem_filter.mp hr').2
    exact hbefore.along hasc hends hends'
  exact (hd.perm_restrict h).symm.eq_of_pairwise (fun r r' _ _ h h' ↦ absurd h' h.asymm) hsorted
    (s.pairwise_relations _)

theorem mem_decls_of_mem_restrict {decl : Decl} (h : decl ∈ (d.restrict order).decls) :
    decl ∈ d.decls := by
  obtain ⟨x, -, hx⟩ := List.mem_filterMap.mp h
  exact List.mem_of_getElem? hx

/-! ## The types that pass a test -/

/-- The handles of the types that pass a test, in order. -/
def handlesWhere (d : Diagram) (test : Decl → Bool) : List Nat :=
  d.handles.filter fun x ↦ (d.decl? x).any test

theorem pairwise_handlesWhere (d : Diagram) (test : Decl → Bool) :
    (d.handlesWhere test).Pairwise (· < ·) :=
  List.pairwise_lt_range.filter _

theorem selection_handlesWhere (d : Diagram) (test : Decl → Bool) :
    d.Selection (d.handlesWhere test) :=
  ⟨(d.pairwise_handlesWhere test).imp Nat.ne_of_lt,
    fun _ hx ↦ mem_handles_iff.mp (List.mem_filter.mp hx).1⟩

theorem filterMap_decl?_handles (d : Diagram) : d.handles.filterMap d.decl? = d.decls := by
  have h := congrArg (List.filterMap id) d.map_decl?_handles
  simpa [List.filterMap_map] using h

/-- Restricting a diagram to the types that pass a test filters its types. -/
theorem decls_restrict_handlesWhere (d : Diagram) (test : Decl → Bool) :
    (d.restrict (d.handlesWhere test)).decls = d.decls.filter test := by
  have hcomm := filter_filterMap_comm (g := d.decl?) (p := test)
    (q := fun x ↦ (d.decl? x).any test) (fun x decl hx ↦ by rw [hx, Option.any_some]) d.handles
  rw [filterMap_decl?_handles] at hcomm
  exact hcomm.symm

end Diagram

/-! ## Building again, and building less -/

namespace Inference

open Diagram

theorem keeps_of_mem_build {inference : Inference} {decls : List Decl} {decl : Decl}
    (h : decl ∈ (inference.build decls).value.decls) : inference.Keeps decl := by
  rw [inference.build_value, List.mem_filter, decide_eq_true_eq] at h
  exact h.2

/-- From types that it keeps, an inference builds the diagram of all of them. -/
theorem build_value_of_keeps {inference : Inference} {decls : List Decl}
    (h : ∀ decl ∈ decls, inference.Keeps decl) :
    (inference.build decls).value = ⟨decls, inference.settings.relations decls⟩ := by
  have hself : decls.filter (fun decl ↦ inference.Keeps decl) = decls :=
    List.filter_eq_self.mpr fun decl hdecl ↦ decide_eq_true (h decl hdecl)
  rw [inference.build_value, hself]

/-- Building from the types of the diagram keeps all of them, and finds the relations of the
diagram, in some order. -/
def Recovers (inference : Inference) (d : Diagram) : Prop :=
  (inference.build d.decls).value.decls = d.decls ∧
    (inference.build d.decls).value.relations.Perm d.relations

/-- An inference recovers the parts of what it built. -/
theorem recovers_restrict (inference : Inference) (decls : List Decl) {order : List Nat}
    (h : (inference.build decls).value.Selection order) :
    inference.Recovers ((inference.build decls).value.restrict order) := by
  have hkeeps : ∀ decl ∈ ((inference.build decls).value.restrict order).decls,
      inference.Keeps decl := fun decl hdecl ↦ keeps_of_mem_build (mem_decls_of_mem_restrict hdecl)
  rw [Recovers, build_value_of_keeps hkeeps]
  exact ⟨rfl, (inferredBy_build inference decls).perm_restrict h⟩

/-- **Building from an extraction agrees with extracting.**  Build a diagram, extract a part of it
around an issued handle or by a name that some type has, and build again from the types of the part.
The second inference keeps all of them, in their order, and finds the same relations as the part has
between the same handles.  And building again from all types of the diagram gives the diagram. -/
theorem rebuild_agrees (inference : Inference) (decls : List Decl) :
    let built := (inference.build decls).value
    (∀ seed depth, built.issued seed = true →
      ∃ part, built.neighbourhood seed depth = .ok part ∧ inference.Recovers part.value) ∧
    (∀ name depth, (∃ x decl, built.decl? x = some decl ∧ decl.name = name) →
      ∃ part, built.focus name depth = .ok part ∧ inference.Recovers part.value) ∧
    (inference.build built.decls).value = built := by
  intro built
  have hwf : built.WellFormed := wellFormed_build inference decls
  obtain ⟨hneighbourhood, hfocus⟩ := forall_extraction (d := built)
    (P := fun _ _ part ↦ inference.Recovers part)
    fun seeds depth _ hs ↦ inference.recovers_restrict decls (hwf.selection_within hs depth)
  refine ⟨hneighbourhood, hfocus, ?_⟩
  rw [build_value_of_keeps fun decl ↦ keeps_of_mem_build]
  exact (inferredBy_build inference decls).eq_mk.symm

theorem rebuild_agrees_packages :
    let inference : Inference := ({} : Inference).require fun decl ↦ decl.package = "app"
    let decls : List Decl :=
      [((Decl.named "User" "app").withField (.named "home" "Address")).withField
          (.named "last" "Order"),
        .named "Helper" "lib", .named "Address" "app",
        (Decl.named "Order" "app").withField (.named "owner" "User")]
    let built := (inference.build decls).value
    built.relations = [⟨0, 1, .encapsulates⟩, ⟨0, 2, .encapsulates⟩, ⟨2, 0, .encapsulates⟩] ∧
    (built.issued 2 = true ∧
      ∃ part, built.neighbourhood 2 1 = .ok part ∧ inference.Recovers part.value) ∧
    ((∃ x decl, built.decl? x = some decl ∧ decl.name = "Order") ∧
      ∃ part, built.focus "Order" 2 = .ok part ∧ inference.Recovers part.value) ∧
    (inference.build built.decls).value = built := by
  intro inference decls built
  have hseed : built.issued 2 = true := by decide +kernel
  have hname : ∃ x decl, built.decl? x = some decl ∧ decl.name = "Order" :=
    ⟨2, (Decl.named "Order" "app").withField (.named "owner" "User"), by decide +kernel, rfl⟩
  obtain ⟨haround, hnamed, hwhole⟩ := rebuild_agrees inference decls
  exact ⟨by decide +kernel, ⟨hseed, haround 2 1 hseed⟩, ⟨hname, hnamed "Order" 2 hname⟩, hwhole⟩

theorem keeps_filter_iff {inference : Inference} {f : Filter} {decl : Decl} :
    (inference.filter f).Keeps decl ↔ inference.Keeps decl ∧ f.accepts decl = true := by
  simp only [Keeps, filter, List.forall_mem_append, List.forall_mem_singleton, and_assoc]

/-- **A filter restricts the built diagram** to the types that it accepts. -/
theorem build_filter (inference : Inference) (f : Filter) (decls : List Decl) :
    ((inference.filter f).build decls).value =
      (inference.build decls).value.restrict
        ((inference.build decls).value.handlesWhere f.accepts) := by
  have hpart := (inferredBy_build inference decls).restrict
    (selection_handlesWhere _ f.accepts) (pairwise_handlesWhere _ f.accepts)
  have hkept : decls.filter (fun decl ↦ (inference.filter f).Keeps decl) =
      (inference.build decls).value.decls.filter f.accepts := by
    rw [inference.build_value, List.filter_filter]
    simp only [keeps_filter_iff, Bool.decide_and, Bool.decide_eq_true, Bool.and_comm]
  rw [hpart.eq_mk, decls_restrict_handlesWhere, build_value, hkept]
  rfl

/-- **Filtering first is restricting afterwards.**  With one more filter, an inference builds the
diagram of those types that it built before and that the filter accepts, in their order.  The
relations are those between accepted types, in their order, with both ends at their new positions.
So a filter drops types, and the relations at these types, and leaves all else as it is. -/
theorem filter_restricts (inference : Inference) (f : Filter) (decls : List Decl) :
    let built := (inference.build decls).value
    let filtered := ((inference.filter f).build decls).value
    let accepted := built.handlesWhere f.accepts
    filtered.decls = built.decls.filter f.accepts ∧
      filtered.relations =
        (built.relations.filter fun r ↦ r.source ∈ accepted ∧ r.target ∈ accepted).map
          (Relation.along accepted.idxOf) ∧
      (∀ x ∈ accepted, filtered.decl? (accepted.idxOf x) = built.decl? x) ∧
      ∀ x ∈ accepted, ∀ y ∈ accepted, ∀ kind,
        ⟨accepted.idxOf x, accepted.idxOf y, kind⟩ ∈ filtered.relations ↔
          ⟨x, y, kind⟩ ∈ built.relations := by
  intro built filtered accepted
  have hfiltered : filtered = built.restrict accepted := inference.build_filter f decls
  have hplace : ∀ x ∈ accepted, accepted.idxOf? x = some (accepted.idxOf x) := fun x hx ↦
    idxOf?_eq_some_iff_mem.mpr ⟨hx, rfl⟩
  rw [hfiltered]
  refine ⟨built.decls_restrict_handlesWhere f.accepts, built.relations_restrict accepted,
    fun x hx ↦ ?_, fun x hx y hy kind ↦ mem_relations_restrict_of_renumber ?_⟩
  · exact (built.selection_handlesWhere f.accepts).decl?_restrict (hplace x hx)
  · exact Relation.renumber_eq_some_iff.mpr ⟨hplace x hx, hplace y hy, rfl⟩

theorem filter_restricts_packages :
    let f : Filter := ⟨"app", fun decl ↦ decl.package = "app"⟩
    let decls : List Decl :=
      [((Decl.named "User" "app").withField (.named "help" "Helper")).withField
          (.named "home" "Address"),
        (Decl.named "Helper" "lib").withField (.named "target" "Address"), .named "Address" "app"]
    let built := (({} : Inference).build decls).value
    let filtered := ((({} : Inference).filter f).build decls).value
    let accepted := built.handlesWhere f.accepts
    built.relations = [⟨0, 1, .encapsulates⟩, ⟨0, 2, .encapsulates⟩, ⟨1, 2, .encapsulates⟩] ∧
    filtered.relations = [⟨0, 1, .encapsulates⟩] ∧ accepted = [0, 2] ∧
    (2 ∈ accepted ∧ filtered.decl? (accepted.idxOf 2) = built.decl? 2) ∧
    (0 ∈ accepted ∧
      (⟨accepted.idxOf 0, accepted.idxOf 2, .encapsulates⟩ ∈ filtered.relations ↔
        ⟨0, 2, .encapsulates⟩ ∈ built.relations)) := by
  intro f decls built filtered accepted
  have hsource : 0 ∈ accepted := by decide +kernel
  have htarget : 2 ∈ accepted := by decide +kernel
  obtain ⟨-, -, hdecl, hrelation⟩ := filter_restricts {} f decls
  exact ⟨by decide +kernel, by decide +kernel, by decide +kernel, ⟨htarget, hdecl 2 htarget⟩,
    hsource, hrelation 0 hsource 2 htarget .encapsulates⟩

end Inference
end TypeDiagram
