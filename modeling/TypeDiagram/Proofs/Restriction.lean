import TypeDiagram.Diagram.Extraction
import Mathlib.Data.List.Nodup

/-!
# Restricting a diagram to some of its types

`Diagram.restrict` takes a list of handles and makes a diagram of these types alone.  The type that
stands at position `i` of the list has handle `i` there, so `order.idxOf?` is the renumbering: it
sends a handle of the whole diagram to its handle in the part, if it has one.

Everything that a part of a diagram shows is what the whole diagram shows, renumbered:

* the types (`Selection.decl?_restrict`),
* the relations (`mem_relations_restrict`),
* the neighbours of a type, in their order (`adjacent_restrict`).

The last one needs no assumption on how much of the diagram is selected.  A type at the rim of the
part simply has fewer neighbours there.

`Selection.restrict_restrict` composes two restrictions: a part of a part is a part of the whole.

## What is asked of the list

Most lemmas hold for every list of handles.  What they say is about `order.idxOf?`, which finds the
first place of a handle, and a handle that stands twice or was not issued does no harm there.  It
does harm where places are read as handles.  A repeated handle makes a second copy of a type,
without relations; one that was not issued has no type, so that all later places shift.  A list
without such handles is a `Diagram.Selection`.

Relations are renumbered by `Relation.renumber`, which gives none if one of the ends is not in the
list.  It never sends two relations to the same one, so no relation stands twice in a part if none
does in the whole (`Diagram.nodup_relations_restrict`).
-/

set_option autoImplicit false

namespace TypeDiagram

/-- A condition that survives a renumbering may be tested before it. -/
theorem filter_filterMap_comm {α β : Type} {g : α → Option β} {p : β → Bool} {q : α → Bool}
    (h : ∀ x y, g x = some y → p y = q x) (items : List α) :
    (items.filterMap g).filter p = (items.filter q).filterMap g := by
  induction items with
  | nil => rfl
  | cons x rest ih =>
    cases hx : g x with
    | none =>
      rw [List.filterMap_cons_none hx, ih]
      by_cases hq : q x = true
      · rw [List.filter_cons_of_pos hq, List.filterMap_cons_none hx]
      · rw [List.filter_cons_of_neg hq]
    | some y =>
      have hpq := h x y hx
      rw [List.filterMap_cons_some hx]
      by_cases hq : q x = true
      · rw [List.filter_cons_of_pos (hpq.trans hq), List.filter_cons_of_pos hq,
          List.filterMap_cons_some hx, ih]
      · rw [List.filter_cons_of_neg (hpq ▸ hq), List.filter_cons_of_neg hq, ih]

/-! ## Positions in a list as a renumbering -/

section Positions

variable {order : List Nat} {x y i : Nat}

/-- No two handles get the same number. -/
theorem idxOf?_inj (hx : order.idxOf? x = some i) (hy : order.idxOf? y = some i) : x = y := by
  obtain ⟨_, hxi, -⟩ := List.idxOf?_eq_some_iff.mp hx
  obtain ⟨_, hyi, -⟩ := List.idxOf?_eq_some_iff.mp hy
  exact hxi.symm.trans hyi

theorem idxOf?_eq_iff {j : Nat} (hx : order.idxOf? x = some i) (hy : order.idxOf? y = some j) :
    j = i ↔ y = x := by
  refine ⟨?_, ?_⟩
  · rintro rfl
    exact idxOf?_inj hy hx
  · rintro rfl
    exact Option.some.inj (hy.symm.trans hx)

theorem getElem?_of_idxOf?_eq_some (h : order.idxOf? x = some i) : order[i]? = some x := by
  obtain ⟨hi, hx, -⟩ := List.idxOf?_eq_some_iff.mp h
  rw [List.getElem?_eq_getElem hi, hx]

theorem exists_idxOf?_of_mem (h : x ∈ order) : ∃ i, order.idxOf? x = some i :=
  Option.isSome_iff_exists.mp (List.isSome_idxOf?.mpr h)

theorem mem_of_idxOf?_eq_some (h : order.idxOf? x = some i) : x ∈ order :=
  List.isSome_idxOf?.mp (by rw [h, Option.isSome_some])

/-- A handle gets the number of the place where it stands first. -/
theorem idxOf?_eq_some_iff_mem : order.idxOf? x = some i ↔ x ∈ order ∧ order.idxOf x = i := by
  rw [List.idxOf_eq_getD_idxOf?, ← List.isSome_idxOf?]
  cases order.idxOf? x <;> simp

/-- Without repetitions, a handle gets the number of the place where it stands. -/
theorem idxOf?_eq_some_of_getElem? (hn : order.Nodup) (h : order[i]? = some x) :
    order.idxOf? x = some i := by
  obtain ⟨j, hj⟩ := exists_idxOf?_of_mem (List.mem_of_getElem? h)
  have hij : order[i]? = order[j]? := h.trans (getElem?_of_idxOf?_eq_some hj).symm
  have hi : i < order.length := (List.getElem?_eq_some_iff.mp h).1
  rw [hj, (List.getElem?_inj hi hn).mp hij]

/-- A list keeps its positions when it is renumbered. -/
theorem idxOf?_filterMap {inner : List Nat} (hsub : ∀ y ∈ inner, y ∈ order)
    (hx : order.idxOf? x = some i) : (inner.filterMap order.idxOf?).idxOf? i = inner.idxOf? x := by
  induction inner with
  | nil => rfl
  | cons y rest ih =>
    obtain ⟨j, hj⟩ := exists_idxOf?_of_mem (hsub y List.mem_cons_self)
    rw [List.filterMap_cons, hj, List.idxOf?_cons, List.idxOf?_cons,
      ih fun z hz ↦ hsub z (List.mem_cons_of_mem _ hz)]
    by_cases hyx : y = x
    · subst hyx
      rw [hx] at hj
      rw [if_pos (beq_iff_eq.mpr (Option.some.inj hj).symm), if_pos (beq_self_eq_true y)]
    · have hji : j ≠ i := by
        rintro rfl
        exact hyx (idxOf?_inj hj hx)
      rw [if_neg (by simpa using hji), if_neg (by simpa using hyx)]

/-- The handles at the beginning of the list are numbered from zero. -/
theorem filterMap_idxOf?_of_isPrefix {inner : List Nat} (hn : order.Nodup) (h : inner <+: order) :
    inner.filterMap order.idxOf? = List.range inner.length := by
  obtain ⟨rest, rfl⟩ := h
  have hpart : ∀ before after : List Nat, before ++ after = inner →
      after.filterMap (inner ++ rest).idxOf? = List.range' before.length after.length := by
    intro before after heq
    induction after generalizing before with
    | nil => rfl
    | cons y after ih =>
      have hy : (inner ++ rest).idxOf? y = some before.length := by
        refine idxOf?_eq_some_of_getElem? hn ?_
        rw [← heq, List.append_assoc, List.getElem?_append_right (Nat.le_refl _), Nat.sub_self]
        rfl
      have hlen : (before ++ [y]).length = before.length + 1 := by
        rw [List.length_append, List.length_singleton]
      rw [List.filterMap_cons, hy, ih (before ++ [y]) (by rw [← heq, List.append_assoc]; rfl), hlen,
        List.length_cons, List.range'_succ]
  rw [hpart [] inner rfl, List.length_nil, List.range_eq_range']

end Positions

/-- A renumbered relation leads from the number of its source to the number of its target. -/
theorem Relation.renumber_eq_some_iff {order : List Nat} {r s : Relation} :
    r.renumber order = some s ↔
      order.idxOf? r.source = some s.source ∧ order.idxOf? r.target = some s.target ∧
        r.kind = s.kind := by
  obtain ⟨source, target, kind⟩ := s
  rw [Relation.renumber]
  cases order.idxOf? r.source <;> cases order.idxOf? r.target <;> simp

/-- No two relations become the same. -/
theorem Relation.renumber_inj {order : List Nat} {r r' s : Relation}
    (h : r.renumber order = some s) (h' : r'.renumber order = some s) : r = r' := by
  obtain ⟨hs, ht, hk⟩ := renumber_eq_some_iff.mp h
  obtain ⟨hs', ht', hk'⟩ := renumber_eq_some_iff.mp h'
  cases r
  cases r'
  rw [Relation.mk.injEq]
  exact ⟨idxOf?_inj hs hs', idxOf?_inj ht ht', hk.trans hk'.symm⟩

/-- Renumbering twice is renumbering once, by the places in the inner list. -/
theorem Relation.renumber_renumber {order inner : List Nat} (hsub : ∀ x ∈ inner, x ∈ order)
    (r : Relation) :
    (r.renumber order).bind (Relation.renumber (inner.filterMap order.idxOf?)) =
      r.renumber inner := by
  refine Option.ext fun s ↦ ?_
  rw [Option.bind_eq_some_iff, renumber_eq_some_iff]
  refine ⟨?_, ?_⟩
  · rintro ⟨t, ht, hs⟩
    obtain ⟨hts, htt, htk⟩ := renumber_eq_some_iff.mp ht
    obtain ⟨hss, hst, hsk⟩ := renumber_eq_some_iff.mp hs
    rw [idxOf?_filterMap hsub hts] at hss
    rw [idxOf?_filterMap hsub htt] at hst
    exact ⟨hss, hst, htk.trans hsk⟩
  · rintro ⟨hss, hst, hsk⟩
    obtain ⟨i, hi⟩ := exists_idxOf?_of_mem (hsub _ (mem_of_idxOf?_eq_some hss))
    obtain ⟨j, hj⟩ := exists_idxOf?_of_mem (hsub _ (mem_of_idxOf?_eq_some hst))
    refine ⟨⟨i, j, r.kind⟩, renumber_eq_some_iff.mpr ⟨hi, hj, rfl⟩, ?_⟩
    rw [renumber_eq_some_iff, idxOf?_filterMap hsub hi, idxOf?_filterMap hsub hj]
    exact ⟨hss, hst, hsk⟩

namespace Diagram

variable {d : Diagram} {order : List Nat}

theorem mem_relations_restrict {s : Relation} :
    s ∈ (d.restrict order).relations ↔ ∃ r ∈ d.relations, r.renumber order = some s :=
  List.mem_filterMap

/-- A relation is in the part, under its new numbers, exactly when it is in the whole. -/
theorem mem_relations_restrict_of_renumber {r s : Relation} (h : r.renumber order = some s) :
    s ∈ (d.restrict order).relations ↔ r ∈ d.relations := by
  rw [mem_relations_restrict]
  refine ⟨?_, fun hr ↦ ⟨r, hr, h⟩⟩
  rintro ⟨r', hr', h'⟩
  exact Relation.renumber_inj h' h ▸ hr'

theorem nodup_relations_restrict (h : d.relations.Nodup) (order : List Nat) :
    (d.restrict order).relations.Nodup :=
  h.filterMap fun _ _ _ hr hr' ↦ Relation.renumber_inj hr hr'

/-! ## Neighbours in a part -/

/-- The relations from a type of the part are those of the whole, renumbered. -/
theorem relationsFrom_restrict {x i : Nat} (hx : order.idxOf? x = some i) :
    (d.restrict order).relationsFrom i =
      (d.relationsFrom x).filterMap (Relation.renumber order) := by
  refine filter_filterMap_comm (fun r s hrs ↦ ?_) d.relations
  rw [decide_eq_decide]
  exact idxOf?_eq_iff hx (Relation.renumber_eq_some_iff.mp hrs).1

/-- The relations to a type of the part are those of the whole, renumbered. -/
theorem relationsTo_restrict {x i : Nat} (hx : order.idxOf? x = some i) :
    (d.restrict order).relationsTo i = (d.relationsTo x).filterMap (Relation.renumber order) := by
  refine filter_filterMap_comm (fun r s hrs ↦ ?_) d.relations
  rw [decide_eq_decide]
  exact idxOf?_eq_iff hx (Relation.renumber_eq_some_iff.mp hrs).2.1

theorem map_target_renumber {r : Relation} (h : r.source ∈ order) :
    (r.renumber order).map Relation.target = order.idxOf? r.target := by
  obtain ⟨i, hi⟩ := exists_idxOf?_of_mem h
  rw [Relation.renumber, hi]
  cases order.idxOf? r.target <;> rfl

theorem map_source_renumber {r : Relation} (h : r.target ∈ order) :
    (r.renumber order).map Relation.source = order.idxOf? r.source := by
  obtain ⟨i, hi⟩ := exists_idxOf?_of_mem h
  rw [Relation.renumber, hi]
  cases order.idxOf? r.source <;> rfl

/-- If one end of each relation is in the part, then its other end decides whether the relation
is, and gets its number. -/
theorem map_filterMap_renumber {f : Relation → Nat} {relations : List Relation}
    (h : ∀ r ∈ relations, (r.renumber order).map f = order.idxOf? (f r)) :
    (relations.filterMap (Relation.renumber order)).map f =
      (relations.map f).filterMap order.idxOf? := by
  rw [List.map_filterMap, List.filterMap_map]
  exact List.filterMap_congr h

theorem successors_restrict {x i : Nat} (hx : order.idxOf? x = some i) :
    (d.restrict order).successors i = (d.successors x).filterMap order.idxOf? := by
  have hmem : x ∈ order := mem_of_idxOf?_eq_some hx
  rw [successors, successors, relationsFrom_restrict hx, List.filterMap_reverse]
  refine congrArg List.reverse (map_filterMap_renumber fun r hr ↦ map_target_renumber ?_)
  exact (mem_relationsFrom.mp hr).2.symm ▸ hmem

theorem predecessors_restrict {x i : Nat} (hx : order.idxOf? x = some i) :
    (d.restrict order).predecessors i = (d.predecessors x).filterMap order.idxOf? := by
  have hmem : x ∈ order := mem_of_idxOf?_eq_some hx
  rw [predecessors, predecessors, relationsTo_restrict hx, List.filterMap_reverse]
  refine congrArg List.reverse (map_filterMap_renumber fun r hr ↦ map_source_renumber ?_)
  exact (mem_relationsTo.mp hr).2.symm ▸ hmem

/-- **The neighbours of a type in a part are its neighbours in the whole**, as far as they are in
the part, in the same order. -/
theorem adjacent_restrict {x i : Nat} (hx : order.idxOf? x = some i) :
    (d.restrict order).adjacent i = (d.adjacent x).filterMap order.idxOf? := by
  rw [adjacent, adjacent, successors_restrict hx, predecessors_restrict hx, List.filterMap_append,
    filter_filterMap_comm]
  intro y j hy
  rw [decide_eq_decide, ne_eq, ne_eq, not_iff_not]
  exact idxOf?_eq_iff hx hy

/-! ## Selections -/

/-- A list of issued handles without repetitions. -/
structure Selection (d : Diagram) (order : List Nat) : Prop where
  nodup : order.Nodup
  issued : ∀ x ∈ order, d.issued x = true

namespace Selection

/-- The types of the part are the selected ones, one by one. -/
theorem decls_restrict (h : d.Selection order) :
    (d.restrict order).decls.map some = order.map d.decl? := by
  have hsome : ∀ x ∈ order, (d.decl? x).isSome = true := by
    intro x hx
    have hlt := of_decide_eq_true (h.issued x hx)
    rw [decl?, List.getElem?_eq_getElem hlt, Option.isSome_some]
  have hfilter : (order.map d.decl?).filter Option.isSome = order.map d.decl? :=
    List.filter_eq_self.mpr (List.forall_mem_map.mpr hsome)
  rw [restrict, List.map_filterMap_some_eq_filter_map_isSome, hfilter]

theorem length_restrict (h : d.Selection order) :
    (d.restrict order).decls.length = order.length := by
  have := congrArg List.length h.decls_restrict
  rwa [List.length_map, List.length_map] at this

theorem issued_restrict (h : d.Selection order) {x i : Nat} (hx : order.idxOf? x = some i) :
    (d.restrict order).issued i = true := by
  obtain ⟨hi, -⟩ := List.idxOf?_eq_some_iff.mp hx
  rw [Diagram.issued, decide_eq_true_eq, h.length_restrict]
  exact hi

theorem decl?_restrict (h : d.Selection order) {x i : Nat} (hx : order.idxOf? x = some i) :
    (d.restrict order).decl? i = d.decl? x := by
  have hi := congrArg (fun l ↦ l[i]?) h.decls_restrict
  simp only [List.getElem?_map, getElem?_of_idxOf?_eq_some hx, Option.map_some] at hi
  obtain ⟨decl, hdecl, hsome⟩ := Option.map_eq_some_iff.mp hi
  rw [Diagram.decl?, hdecl, hsome]

/-- **A part of a part is a part of the whole.** -/
theorem restrict_restrict (h : d.Selection order) {inner : List Nat}
    (hsub : ∀ x ∈ inner, x ∈ order) :
    (d.restrict order).restrict (inner.filterMap order.idxOf?) = d.restrict inner := by
  have hdecls : ∀ x ∈ inner, (order.idxOf? x).bind (d.restrict order).decl? = d.decl? x := by
    intro x hx
    obtain ⟨i, hi⟩ := exists_idxOf?_of_mem (hsub x hx)
    rw [hi, Option.bind_some, h.decl?_restrict hi]
  rw [restrict, restrict, Diagram.mk.injEq]
  refine ⟨?_, ?_⟩
  · rw [List.filterMap_filterMap]
    exact List.filterMap_congr hdecls
  · rw [restrict, List.filterMap_filterMap]
    exact List.filterMap_congr fun r _ ↦ r.renumber_renumber hsub

end Selection
end Diagram
end TypeDiagram
