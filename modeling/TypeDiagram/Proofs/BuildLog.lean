import TypeDiagram.Proofs.Locality
import TypeDiagram.Proofs.Queries
import Mathlib.Algebra.Ring.Nat

/-!
# What the log of a build says

An inference writes its log while it works.  How many types a type encapsulates is written down when
they are collected, and at that time the diagram has no relations at all.  The relations are added
later, one by one, and each addition might be refused, or find that the relation is there already.
So it is not plain that the log fits the diagram that comes out.  This file says that it does: the
log of a build can be read off the built diagram, as if it had been written in the end.

## What is here

* `Diagram.senders` — the types from which a relation leads to another one, and
  `Diagram.WellFormed.sum_senders` — **the relations of all senders are all relations**.
* `Diagram.InferredBy.length_targets` — as many targets are collected for a type as there will be
  relations from it.
* `Inference.log_build` — **the log of a build is the account of the built diagram**.  Nothing is
  said of refused additions, because there are none (`Inference.foldl_connect_encapsulations`).
* `Inference.Truthful` — all that the log says about the diagram, clause by clause.

## Why the log is right

Three things have to come together.  The handles of an encapsulation are positions among the kept
types, so they are issued and nothing is refused.  Different types have different positions, and so
have the targets of one type; hence no relation is asked for twice, and nothing is passed over in
silence.  And each type is gone through once, so it has as many relations in the end as targets were
collected for it.  The first two are in `Inference.foldl_connect`.  Without them a log would be
written all the same, but there would be warnings in it, or numbers that are too large.

The log is compared as data first, in `Inference.log_build`.  Its words and levels follow from
there, entry by entry, and are written out once more in `Inference.Truthful` for whoever reads the
log.
-/

set_option autoImplicit false

namespace TypeDiagram
namespace Diagram

/-! ## Where relations begin -/

/-- The types that a relation leads away from, with their handles, in order. -/
def senders (d : Diagram) : List (Decl × Nat) :=
  d.decls.zipIdx.filter fun entry ↦ d.relationsFrom entry.2 ≠ []

variable {d : Diagram} {s : Settings}

/-- The relations of the senders are those of all types. -/
theorem flatMap_relationsFrom_senders (d : Diagram) :
    (d.senders.flatMap fun entry ↦ d.relationsFrom entry.2) =
      d.handles.flatMap d.relationsFrom := by
  have hhandles : d.decls.zipIdx.map Prod.snd = d.handles := by
    rw [List.zipIdx_map_snd, handles, List.range_eq_range']
  rw [← hhandles, List.flatMap_map, List.flatMap_def, List.flatMap_def, senders,
    ← List.flatten_filter_ne_nil (L := d.decls.zipIdx.map _), List.filter_map]
  rfl

/-- **The relations of all senders are all relations**, so their numbers add up. -/
theorem WellFormed.sum_senders (hd : d.WellFormed) :
    (d.senders.map fun entry ↦ (d.relationsFrom entry.2).length).sum = d.relations.length := by
  rw [← List.length_flatMap, flatMap_relationsFrom_senders, hd.perm_relationsFrom.length_eq]

/-! ## What is collected for a type -/

/-- The relations from a type lead to its targets. -/
theorem InferredBy.perm_relationsFrom (hd : d.InferredBy s) {source : Decl} {i : Nat}
    (hi : d.decls[i]? = some source) :
    (d.relationsFrom i).Perm
      ((Inference.targets s d.decls source i).map fun j ↦ ⟨i, j, .encapsulates⟩) := by
  have hnodup : (d.relationsFrom i).Nodup := (hd ▸ Settings.nodup_relations).filter _
  have htargets : ((Inference.targets s d.decls source i).map
      fun j ↦ Relation.mk i j .encapsulates).Nodup := by
    rw [Inference.targets_eq hi]
    exact (List.nodup_range.filter _).map fun j k hjk ↦ (Relation.mk.inj hjk).2.1
  refine (List.perm_ext_iff_of_nodup hnodup htargets).mpr fun r ↦ ?_
  rw [mem_relationsFrom, hd, Settings.mem_relations_iff, Inference.targets_eq hi]
  refine ⟨?_, fun hr ↦ ?_⟩
  · rintro ⟨⟨hrelates, hkind⟩, rfl⟩
    have htarget : r.target ∈ (List.range d.decls.length).filter
        fun j ↦ s.Relates d.decls r.source j :=
      List.mem_filter.mpr ⟨List.mem_range.mpr hrelates.lt.2, decide_eq_true hrelates⟩
    exact List.mem_map.mpr ⟨r.target, htarget, by rw [← hkind]⟩
  · obtain ⟨j, hj, rfl⟩ := List.mem_map.mp hr
    exact ⟨⟨of_decide_eq_true (List.mem_filter.mp hj).2, rfl⟩, rfl⟩

/-- **As many targets are collected for a type as there are relations from it.** -/
theorem InferredBy.length_targets (hd : d.InferredBy s) {source : Decl} {i : Nat}
    (hi : d.decls[i]? = some source) :
    (Inference.targets s d.decls source i).length = (d.relationsFrom i).length := by
  rw [(hd.perm_relationsFrom hi).length_eq, List.length_map]

/-- What is reported while targets are collected can be read off the relations. -/
theorem InferredBy.map_event_encapsulations (hd : d.InferredBy s) :
    (Inference.encapsulations s d.decls).map Inference.Encapsulation.event =
      d.senders.map fun entry ↦
        .encapsulates entry.1.qualifiedName (d.relationsFrom entry.2).length := by
  have hlength : ∀ entry ∈ d.decls.zipIdx,
      (Inference.targets s d.decls entry.1 entry.2).length = (d.relationsFrom entry.2).length :=
    fun entry hentry ↦ hd.length_targets (List.mem_zipIdx_iff_getElem?.mp hentry)
  rw [Inference.encapsulations, List.filter_map, List.map_map, senders]
  have hfilter : d.decls.zipIdx.filter
      ((fun e : Inference.Encapsulation ↦ !e.targets.isEmpty) ∘ fun entry ↦
        ⟨entry.1, entry.2, Inference.targets s d.decls entry.1 entry.2⟩) =
      d.decls.zipIdx.filter fun entry ↦ d.relationsFrom entry.2 ≠ [] := by
    refine List.filter_congr fun entry hentry ↦ ?_
    have hnil :
        Inference.targets s d.decls entry.1 entry.2 = [] ↔ d.relationsFrom entry.2 = [] := by
      rw [← List.length_eq_zero_iff, hlength entry hentry, List.length_eq_zero_iff]
    rw [Bool.eq_iff_iff]
    simp [hnil]
  rw [hfilter]
  refine List.map_congr_left fun entry hentry ↦ ?_
  simp [Inference.Encapsulation.event, hlength entry (List.mem_filter.mp hentry).1]

end Diagram

/-! ## The log of a build -/

namespace Inference

open Diagram

theorem length_build_le (inference : Inference) (decls : List Decl) :
    (inference.build decls).value.decls.length ≤ decls.length := by
  rw [inference.build_value]
  exact List.length_filter_le _ _

/-- **The log of a build is the account of the built diagram.** -/
theorem log_build (inference : Inference) (decls : List Decl) :
    let built := (inference.build decls).value
    (inference.build decls).log =
      (if built.decls.length < decls.length then
        [.filteredOut (decls.length - built.decls.length) decls.length] else []) ++
      (built.senders.map fun entry ↦
        .encapsulates entry.1.qualifiedName (built.relationsFrom entry.2).length) ++
      [.built built.decls.length built.relations.length] := by
  intro built
  let d : Diagram :=
    ⟨decls.filter inference.keeps, inference.settings.relations (decls.filter inference.keeps)⟩
  have hd : d.InferredBy inference.settings := rfl
  have hbuilt : built = d := by
    simp only [built, build, foldl_connect_encapsulations, d]
  rw [hbuilt, ← hd.map_event_encapsulations]
  simp only [build, foldl_connect_encapsulations, List.append_nil, d]

/-- The log tells the truth about the diagram, which was built from `given` types and has `dropped`
fewer than that. -/
structure Truthful (built : Logged Diagram) (given dropped : Nat) : Prop where
  /-- The types of the diagram and those that were left out are the given ones. -/
  length : built.value.decls.length + dropped = given
  /-- If types were left out, the log first says how many, and of how many.  Then it has one entry
  for each type of the diagram from which a relation leads away, in the order of the types, with the
  number of these relations.  It ends with the numbers of types and relations of the diagram. -/
  events : built.log =
    (if 0 < dropped then [.filteredOut dropped given] else []) ++
    (built.value.senders.map fun entry ↦
      .encapsulates entry.1.qualifiedName (built.value.relationsFrom entry.2).length) ++
    [.built built.value.decls.length built.value.relations.length]
  /-- The entries have these levels and these words. -/
  messages : built.log.map (fun event ↦ (event.level, event.message)) =
    (if 0 < dropped then
      [(.debug, "Filtered out " ++ toString dropped ++ " of " ++ toString given ++ " types")]
      else []) ++
    (built.value.senders.map fun entry ↦ (.debug, entry.1.qualifiedName ++ " encapsulates " ++
      toString (built.value.relationsFrom entry.2).length ++ " type(s)")) ++
    [(.info, "Built type model: " ++ toString built.value.decls.length ++ " types, " ++
      toString built.value.relations.length ++ " relations")]
  /-- There is no warning, and no entry says that a relation was left out. -/
  no_warning : ∀ event ∈ built.log, event.level ≠ .warn ∧ ∀ error, event ≠ .skipped error
  /-- The numbers of relations in the entries add up to the number of all relations. -/
  sum : (built.value.senders.map fun entry ↦ (built.value.relationsFrom entry.2).length).sum =
    built.value.relations.length

/-- **The log of a build tells the truth**, for every inference and all given types.  In particular
the number of types that were left out is a difference that does not fall below zero. -/
theorem log_truthful (inference : Inference) (decls : List Decl) :
    Truthful (inference.build decls) decls.length
      (decls.length - (inference.build decls).value.decls.length) := by
  have hle := inference.length_build_le decls
  have hlog := inference.log_build decls
  dsimp only at hlog
  constructor
  case length => exact Nat.add_sub_of_le hle
  case events =>
    simp only [Nat.sub_pos_iff_lt]
    exact hlog
  case messages =>
    simp only [Nat.sub_pos_iff_lt]
    rw [hlog, List.map_append, List.map_append, List.map_map, apply_ite (List.map _)]
    rfl
  case no_warning =>
    intro event hevent
    rw [hlog, List.mem_append, List.mem_append] at hevent
    rcases hevent with (hevent | hevent) | hevent
    · split at hevent
      · rw [List.mem_singleton.mp hevent]
        exact ⟨nofun, nofun⟩
      · exact absurd hevent List.not_mem_nil
    · obtain ⟨entry, -, rfl⟩ := List.mem_map.mp hevent
      exact ⟨nofun, nofun⟩
    · rw [List.mem_singleton.mp hevent]
      exact ⟨nofun, nofun⟩
  case sum => exact (wellFormed_build inference decls).sum_senders

theorem log_truthful_packages :
    let inference : Inference := ({} : Inference).require fun decl ↦ decl.package = "app"
    let decls : List Decl :=
      [((Decl.named "User" "app").withField (.named "home" "Address")).withField
          (.named "last" "Order"),
        .named "Helper" "lib", .named "Address" "app",
        (Decl.named "Order" "app").withField (.named "owner" "User")]
    let built := (inference.build decls).value
    let log := (inference.build decls).log
    log.map Event.line =
      ["DEBUG Filtered out 1 of 4 types", "DEBUG app.User encapsulates 2 type(s)",
        "DEBUG app.Order encapsulates 1 type(s)", "INFO Built type model: 3 types, 3 relations"] ∧
    (.encapsulates "app.User" 2 ∈ log ∧ (Event.encapsulates "app.User" 2).level ≠ .warn) ∧
    (built.senders.map fun entry ↦ (built.relationsFrom entry.2).length) = [2, 1] ∧
    (built.senders.map fun entry ↦ (built.relationsFrom entry.2).length).sum =
      built.relations.length := by
  intro inference decls built log
  have hmem : .encapsulates "app.User" 2 ∈ log := by decide +kernel
  have h : Truthful (inference.build decls) _ _ := log_truthful inference decls
  exact ⟨by decide +kernel, ⟨hmem, (h.no_warning _ hmem).1⟩, by decide +kernel, h.sum⟩

end Inference
end TypeDiagram
