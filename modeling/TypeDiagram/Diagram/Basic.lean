import TypeDiagram.Decl.Basic
import TypeDiagram.Error

/-!
# Diagrams

A diagram is a list of declared types and a list of relations between them.

* A type is known in its diagram by its *handle*, which is its position in the list of types.
  Types are only ever appended, so a handle keeps its meaning.  A number that is not below the
  number of types is a handle that the diagram has not *issued*.
* A relation leads from one handle to another.  Relations stand in the order in which they were
  added.  `Diagram.addRelation` refuses handles that were not issued, and adds nothing if the same
  relation is there already.

The type `Diagram` does not itself forbid a relation to a handle that was not issued, or a relation
that stands twice; that the operations never produce one is a theorem about them.  Every query is
defined for every number, and what it says about a handle that was not issued is that nothing is
there.

## How the relations are walked

The queries that have to do with single types follow the relations of those types, and not the list
of all relations: `Diagram.successors` and `Diagram.predecessors` are what one step along the
relations of a type leads to, and `Diagram.connecting` are the relations between two types.  All
three start with the latest relation.  `Diagram.findRelation` and `Diagram.unused` are written
through them, and `Diagram.addRelation` asks `Diagram.findRelation` whether there is anything to
add; that each of them says what a look at the whole list would say is `findRelation_eq_some_iff`,
`mem_unused_iff` and `addRelation_eq_ok_iff`.

## Assumptions

* Handles are natural numbers, and neither the number of types nor that of relations is limited.
  What happens when an index no longer fits a machine word is not described.
* A handle is a number and does not say which diagram issued it.  `Diagram.check` is a comparison
  with the number of types, so that it lets a handle of another diagram pass when it is small
  enough.
-/

set_option autoImplicit false

namespace TypeDiagram

/-! ## Relations -/

/-- The kinds of relations between types. -/
inductive RelationKind where
  /-- A type has a field in whose declared type another type is named. -/
  | encapsulates
deriving DecidableEq, Inhabited

namespace RelationKind

/-- The name of a kind of relation in documents. -/
def name : RelationKind → String
  | .encapsulates => "Encapsulates"

/-- A kind of relation as a verb. -/
def verb : RelationKind → String
  | .encapsulates => "encapsulates"

/-- The codec of kinds of relations. -/
def codec : Codec RelationKind := .choice ⟨[.encapsulates], name⟩

end RelationKind

/-- A relation from one type to another, by their handles. -/
structure Relation where
  source : Nat
  target : Nat
  kind : RelationKind
deriving DecidableEq

/-! ## Diagrams -/

/-- Declared types and relations between them. -/
structure Diagram where
  /-- The types in the order in which they were added.  The handle of a type is its position. -/
  decls : List Decl
  /-- The relations in the order in which they were added. -/
  relations : List Relation
deriving DecidableEq

namespace Diagram

/-- The diagram without types. -/
def empty : Diagram := ⟨[], []⟩

instance : Inhabited Diagram := ⟨empty⟩

/-- The diagram of the given types, without relations. -/
def ofDecls (decls : List Decl) : Diagram := ⟨decls, []⟩

/-! ## Handles -/

/-- The type with a handle. -/
def decl? (d : Diagram) (handle : Nat) : Option Decl := d.decls[handle]?

/-- Has the diagram issued this handle? -/
def issued (d : Diagram) (handle : Nat) : Bool := decide (handle < d.decls.length)

/-- Fail unless the diagram has issued this handle. -/
def check (d : Diagram) (handle : Nat) : Except Error Unit :=
  if d.issued handle then .ok () else .error (.unissued handle)

/-- The issued handles, in order. -/
def handles (d : Diagram) : List Nat := List.range d.decls.length

theorem mem_handles_iff {d : Diagram} {handle : Nat} :
    handle ∈ d.handles ↔ d.issued handle = true := by
  simp [handles, issued]

theorem check_eq_ok_iff {d : Diagram} {handle : Nat} :
    d.check handle = .ok () ↔ d.issued handle = true := by
  rw [check]
  split
  · next h => exact iff_of_true rfl h
  · next h => exact iff_of_false (fun h' ↦ nomatch h') h

theorem check_of_not_issued {d : Diagram} {handle : Nat} (h : ¬d.issued handle = true) :
    d.check handle = .error (.unissued handle) := by
  rw [check, if_neg h]

/-- The handles of the types with a simple name, in order. -/
def handlesNamed (d : Diagram) (name : String) : List Nat :=
  d.handles.filter fun handle ↦ (d.decl? handle).any fun decl ↦ decl.name = name

theorem mem_handlesNamed {d : Diagram} {name : String} {handle : Nat} :
    handle ∈ d.handlesNamed name ↔ ∃ decl, d.decl? handle = some decl ∧ decl.name = name := by
  simp only [handlesNamed, handles, List.mem_filter, List.mem_range, Option.any_eq_true_iff_get,
    decide_eq_true_eq]
  constructor
  · rintro ⟨-, hsome, hname⟩
    exact ⟨_, (Option.some_get hsome).symm, hname⟩
  · rintro ⟨decl, hdecl, hname⟩
    have hlt : handle < d.decls.length := (List.getElem?_eq_some_iff.mp hdecl).1
    refine ⟨hlt, by rw [hdecl, Option.isSome_some], ?_⟩
    simpa only [hdecl, Option.get_some] using hname

theorem handlesNamed_ne_nil_iff {d : Diagram} {name : String} :
    d.handlesNamed name ≠ [] ↔ ∃ handle decl, d.decl? handle = some decl ∧ decl.name = name := by
  rw [ne_eq, List.eq_nil_iff_forall_not_mem]
  simp only [mem_handlesNamed, Classical.not_forall, Classical.not_not]

theorem issued_of_mem_handlesNamed {d : Diagram} {name : String} {handle : Nat}
    (h : handle ∈ d.handlesNamed name) : d.issued handle = true := by
  obtain ⟨decl, hdecl, -⟩ := mem_handlesNamed.mp h
  exact decide_eq_true (List.getElem?_eq_some_iff.mp hdecl).1

theorem pairwise_handlesNamed (d : Diagram) (name : String) :
    (d.handlesNamed name).Pairwise (· < ·) :=
  List.pairwise_lt_range.filter _

theorem nodup_handlesNamed (d : Diagram) (name : String) : (d.handlesNamed name).Nodup :=
  (d.pairwise_handlesNamed name).imp Nat.ne_of_lt

/-! ## Relations of a type -/

/-- The relations that lead away from a handle, in order. -/
def relationsFrom (d : Diagram) (handle : Nat) : List Relation :=
  d.relations.filter fun r ↦ r.source = handle

/-- The relations that lead to a handle, in order. -/
def relationsTo (d : Diagram) (handle : Nat) : List Relation :=
  d.relations.filter fun r ↦ r.target = handle

theorem mem_relationsFrom {d : Diagram} {handle : Nat} {r : Relation} :
    r ∈ d.relationsFrom handle ↔ r ∈ d.relations ∧ r.source = handle := by
  rw [relationsFrom, List.mem_filter, decide_eq_true_eq]

theorem mem_relationsTo {d : Diagram} {handle : Nat} {r : Relation} :
    r ∈ d.relationsTo handle ↔ r ∈ d.relations ∧ r.target = handle := by
  rw [relationsTo, List.mem_filter, decide_eq_true_eq]

/-- Where the relations of a handle lead to, the latest relation first. -/
def successors (d : Diagram) (handle : Nat) : List Nat :=
  ((d.relationsFrom handle).map Relation.target).reverse

/-- Where the relations to a handle come from, the latest relation first. -/
def predecessors (d : Diagram) (handle : Nat) : List Nat :=
  ((d.relationsTo handle).map Relation.source).reverse

theorem mem_successors {d : Diagram} {a b : Nat} :
    b ∈ d.successors a ↔ ∃ r ∈ d.relations, r.source = a ∧ r.target = b := by
  simp only [successors, List.mem_reverse, List.mem_map, mem_relationsFrom, and_assoc]

theorem mem_predecessors {d : Diagram} {a b : Nat} :
    b ∈ d.predecessors a ↔ ∃ r ∈ d.relations, r.source = b ∧ r.target = a := by
  simp only [predecessors, List.mem_reverse, List.mem_map, mem_relationsTo, and_assoc, and_comm]

@[simp] theorem successors_eq_nil_iff {d : Diagram} {handle : Nat} :
    d.successors handle = [] ↔ d.relationsFrom handle = [] := by
  rw [successors, List.reverse_eq_nil_iff, List.map_eq_nil_iff]

@[simp] theorem predecessors_eq_nil_iff {d : Diagram} {handle : Nat} :
    d.predecessors handle = [] ↔ d.relationsTo handle = [] := by
  rw [predecessors, List.reverse_eq_nil_iff, List.map_eq_nil_iff]

/-- The relations from one handle to another, the latest first. -/
def connecting (d : Diagram) (source target : Nat) : List Relation :=
  (d.relationsFrom source).reverse.filter fun r ↦ r.target = target

theorem mem_connecting {d : Diagram} {source target : Nat} {r : Relation} :
    r ∈ d.connecting source target ↔
      r ∈ d.relations ∧ r.source = source ∧ r.target = target := by
  rw [connecting, List.mem_filter, List.mem_reverse, mem_relationsFrom, decide_eq_true_eq,
    and_assoc]

/-- The relation of a kind from one handle to another, if there is one. -/
def findRelation (d : Diagram) (source target : Nat) (kind : RelationKind) : Option Relation :=
  ((d.connecting source target).find? fun r ↦ r.kind = kind).map fun _ ↦ ⟨source, target, kind⟩

/-- **What is found is the relation that was asked for**, and it is found exactly when it stands in
the list. -/
theorem findRelation_eq_some_iff {d : Diagram} {source target : Nat} {kind : RelationKind}
    {r : Relation} :
    d.findRelation source target kind = some r ↔
      r = ⟨source, target, kind⟩ ∧ r ∈ d.relations := by
  rw [findRelation, Option.map_eq_some_iff]
  constructor
  · rintro ⟨s, hs, rfl⟩
    obtain ⟨hmem, hsource, htarget⟩ := mem_connecting.mp (List.mem_of_find?_eq_some hs)
    have hkind := List.find?_some hs
    rw [decide_eq_true_eq] at hkind
    exact ⟨rfl, hsource ▸ htarget ▸ hkind ▸ hmem⟩
  · rintro ⟨rfl, hr⟩
    have hsome : ((d.connecting source target).find? fun r ↦ r.kind = kind).isSome = true :=
      List.find?_isSome.mpr ⟨_, mem_connecting.mpr ⟨hr, rfl, rfl⟩, decide_eq_true rfl⟩
    obtain ⟨s, hs⟩ := Option.isSome_iff_exists.mp hsome
    exact ⟨s, hs, rfl⟩

/-- Nothing is found exactly when the relation is not there. -/
theorem isNone_findRelation_iff {d : Diagram} {r : Relation} :
    (d.findRelation r.source r.target r.kind).isNone = true ↔ r ∉ d.relations := by
  rw [Option.isNone_iff_eq_none, Option.eq_none_iff_forall_ne_some]
  constructor
  · exact fun h hr ↦ h r (findRelation_eq_some_iff.mpr ⟨rfl, hr⟩)
  · intro h s hs
    obtain ⟨rfl, hmem⟩ := findRelation_eq_some_iff.mp hs
    exact h hmem

/-- The handles of the types that no relation touches, in order. -/
def unused (d : Diagram) : List Nat :=
  d.handles.filter fun handle ↦
    (d.successors handle).isEmpty && (d.predecessors handle).isEmpty

/-- **A type is unused when no relation starts at it and none ends at it.** -/
theorem mem_unused_iff_relations {d : Diagram} {handle : Nat} :
    handle ∈ d.unused ↔
      d.issued handle = true ∧ d.relationsFrom handle = [] ∧ d.relationsTo handle = [] := by
  rw [unused, List.mem_filter, mem_handles_iff, Bool.and_eq_true, List.isEmpty_iff,
    List.isEmpty_iff, successors_eq_nil_iff, predecessors_eq_nil_iff]

theorem mem_unused_iff {d : Diagram} {handle : Nat} :
    handle ∈ d.unused ↔
      d.issued handle = true ∧ ∀ r ∈ d.relations, r.source ≠ handle ∧ r.target ≠ handle := by
  rw [mem_unused_iff_relations, relationsFrom, relationsTo, List.filter_eq_nil_iff,
    List.filter_eq_nil_iff]
  simp only [decide_eq_true_eq, ne_eq, ← forall_and]

/-! ## Changes -/

/-- Append a type.  Its handle is returned along with the new diagram. -/
def addDecl (d : Diagram) (decl : Decl) : Nat × Diagram :=
  (d.decls.length, { d with decls := d.decls ++ [decl] })

/-- Add a relation, unless the same one is found already.  Both handles have to be issued; the
source is checked first. -/
def addRelation (d : Diagram) (r : Relation) : Except Error Diagram := do
  d.check r.source
  d.check r.target
  if (d.findRelation r.source r.target r.kind).isNone then
    return { d with relations := d.relations ++ [r] }
  else
    return d

/-- **A relation is added exactly when both its handles are issued**, and it is appended exactly
when it is not there already. -/
theorem addRelation_eq_ok_iff {d e : Diagram} {r : Relation} :
    d.addRelation r = .ok e ↔
      d.issued r.source = true ∧ d.issued r.target = true ∧
        e = if r ∈ d.relations then d else { d with relations := d.relations ++ [r] } := by
  simp only [addRelation, isNone_findRelation_iff, ite_not]
  by_cases hs : d.issued r.source = true
  · by_cases ht : d.issued r.target = true
    · rw [check_eq_ok_iff.mpr hs, check_eq_ok_iff.mpr ht]
      simp only [hs, ht, true_and]
      split <;> exact ⟨fun h ↦ (Except.ok.inj h).symm, fun h ↦ congrArg Except.ok h.symm⟩
    · rw [check_eq_ok_iff.mpr hs, check_of_not_issued ht]
      exact iff_of_false (fun h ↦ nomatch h) fun h ↦ ht h.2.1
  · rw [check_of_not_issued hs]
    exact iff_of_false (fun h ↦ nomatch h) fun h ↦ hs h.1

/-! ## Rendering -/

/-- The diagram as a list of names. -/
def render (d : Diagram) : String :=
  "Model \x7b\n" ++ String.join (d.decls.map fun decl ↦ " " ++ decl.name ++ ",\n") ++ "\x7d"

end Diagram
end TypeDiagram
