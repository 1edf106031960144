import TypeDiagram.Proofs.BuildLog
import TypeDiagram.Proofs.Merging
import TypeDiagram.Proofs.Monotonicity

/-!
# What an inference does not look at

A declaration holds much that is there for whoever draws the diagram: the names of fields, who may
use them and whether to show them, the methods, the kind of the type, the types that it extends or
implements or is nested in, its annotations, its documentation.  None of this may decide about a
diagram, except that a filter is free to look at it.  This file compares two inferences from
declarations that differ in such things alone.

## What is here

* `Decl.Alike` and `Diagram.Alike` — declarations that agree in what an inference looks at, and
  diagrams of such declarations with the same relations.
* `Decl.Alike.extendedBy` — of two declarations that are alike, each one extends the other.  So each
  of two inferences finds what the other one finds (`Settings.relations_eq_of_alike`).
* One lemma for each reader of a diagram: `Diagram.Alike.unused`, `Diagram.Alike.handlesNamed`,
  `Diagram.Alike.within`, `Diagram.Alike.restrict`, `Diagram.Alike.map_senders`.
* `Diagram.SameView` — two answers that show the same part of two diagrams.

## Filters and views

A filter may look at everything.  So the two inferences are compared on types that their filters
treat alike: of two declarations that correspond to each other, both are kept or neither is.  With
required annotations this becomes a condition on annotations; with neither filters nor required
annotations it is always met.

The parts that the two diagrams show need not be equal, since they hold the declarations with all
that an inference does not look at.  What is equal is everything else: the handles, the handles that
they stand for, the relations and the logs.  `Diagram.SameView` says this, and it has a case for two
diagrams that refuse to answer for the same reason.
-/

set_option autoImplicit false

namespace TypeDiagram

/-! ## Declarations -/

/-- The two types agree in what an inference looks at: name, package, imports, and the declared
types of the fields with their arguments. -/
structure Decl.Alike (decl decl' : Decl) : Prop where
  name : decl.name = decl'.name
  package : decl.package = decl'.package
  imports : decl.imports = decl'.imports
  /-- The fields have the same types with the same arguments, one by one. -/
  fields : (decl.fields.map fun field ↦ (field.typeName, field.typeArguments)) =
    decl'.fields.map fun field ↦ (field.typeName, field.typeArguments)

namespace Decl.Alike

variable {decl decl' : Decl}

theorem symm (h : decl.Alike decl') : decl'.Alike decl :=
  ⟨h.name.symm, h.package.symm, h.imports.symm, h.fields.symm⟩

/-- **Of two declarations that are alike, each one extends the other.** -/
theorem extendedBy (h : decl.Alike decl') : decl.ExtendedBy decl' := by
  have hfields : List.Forall₂ Field.ExtendedBy decl.fields decl'.fields := by
    have hequal := h.fields
    rw [← List.forall₂_eq_eq_eq, List.forall₂_map_left_iff, List.forall₂_map_right_iff] at hequal
    refine hequal.imp fun field field' hfield ↦ ?_
    obtain ⟨htype, harguments⟩ := Prod.mk.inj hfield
    exact ⟨htype.symm, harguments ▸ .refl _⟩
  exact ⟨h.name.symm, h.package.symm, h.imports ▸ .refl _,
    List.sublistForall₂_iff.mpr ⟨_, hfields, .refl _⟩⟩

theorem qualifiedName (h : decl.Alike decl') : decl.qualifiedName = decl'.qualifiedName :=
  h.extendedBy.qualifiedName.symm

end Decl.Alike

/-- Types that are alike have the same relations among them. -/
theorem Settings.relations_eq_of_alike {s : Settings} {decls decls' : List Decl}
    (h : List.Forall₂ Decl.Alike decls decls') : s.relations decls = s.relations decls' := by
  have hback : List.Forall₂ Decl.Alike decls' decls := (h.imp fun _ _ hdecl ↦ hdecl.symm).flip
  exact (relations_sublist_of_extendedBy (h.imp fun _ _ hdecl ↦ hdecl.extendedBy)).antisymm
    (relations_sublist_of_extendedBy (hback.imp fun _ _ hdecl ↦ hdecl.extendedBy))

/-! ## Diagrams -/

namespace Diagram

/-- The types of the two diagrams are alike, one by one, and their relations are the same. -/
structure Alike (d e : Diagram) : Prop where
  decls : List.Forall₂ Decl.Alike d.decls e.decls
  relations : d.relations = e.relations

namespace Alike

variable {d e : Diagram}

theorem length_decls (h : d.Alike e) : d.decls.length = e.decls.length := h.decls.length_eq

theorem handles (h : d.Alike e) : d.handles = e.handles := congrArg List.range h.length_decls

theorem issued (h : d.Alike e) (x : Nat) : d.issued x = e.issued x := by
  rw [Diagram.issued, Diagram.issued, h.length_decls]

/-- What an inference looks at is the same, type by type. -/
theorem map_decls {β : Type} (h : d.Alike e) {f : Decl → β}
    (hf : ∀ decl decl', decl.Alike decl' → f decl = f decl') : d.decls.map f = e.decls.map f := by
  rw [← List.forall₂_eq_eq_eq, List.forall₂_map_left_iff, List.forall₂_map_right_iff]
  exact h.decls.imp hf

theorem decl? (h : d.Alike e) (x : Nat) : Option.Rel Decl.Alike (d.decl? x) (e.decl? x) := by
  cases hx : d.decl? x with
  | none =>
    have hlength : e.decls.length ≤ x := h.length_decls ▸ List.getElem?_eq_none_iff.mp hx
    rw [Diagram.decl?, List.getElem?_eq_none hlength]
    exact .none
  | some decl =>
    obtain ⟨decl', hx', halike⟩ := exists_getElem?_of_forall₂ h.decls hx
    rw [Diagram.decl?, hx']
    exact .some halike

/-! ### Queries -/

theorem relationsFrom (h : d.Alike e) : d.relationsFrom = e.relationsFrom := by
  funext x
  rw [Diagram.relationsFrom, Diagram.relationsFrom, h.relations]

theorem adjacent (h : d.Alike e) : d.adjacent = e.adjacent := by
  funext x
  simp only [Diagram.adjacent, successors, predecessors, relationsTo, h.relationsFrom, h.relations]

theorem unused (h : d.Alike e) : d.unused = e.unused := by
  rw [unused_eq_filter, unused_eq_filter, h.handles, h.adjacent]

theorem handlesNamed (h : d.Alike e) (name : String) :
    d.handlesNamed name = e.handlesNamed name := by
  rw [Diagram.handlesNamed, Diagram.handlesNamed, h.handles]
  refine List.filter_congr fun x _ ↦ ?_
  have hx := h.decl? x
  generalize d.decl? x = decl, e.decl? x = decl' at hx ⊢
  cases hx with
  | none => rfl
  | some hdecl => simp [hdecl.name]

/-- The senders are called the same, and are reported in the same way. -/
theorem map_senders (h : d.Alike e) :
    (d.senders.map fun entry ↦
      Event.encapsulates entry.1.qualifiedName (d.relationsFrom entry.2).length) =
    e.senders.map fun entry ↦
      .encapsulates entry.1.qualifiedName (e.relationsFrom entry.2).length := by
  -- What is reported depends on the types through their qualified names alone.
  have hnames : ∀ g : Diagram, (g.senders.map fun entry ↦
      Event.encapsulates entry.1.qualifiedName (g.relationsFrom entry.2).length) =
      (((g.decls.map Decl.qualifiedName).zipIdx.filter fun entry ↦
        g.relationsFrom entry.2 ≠ []).map fun entry ↦
          .encapsulates entry.1 (g.relationsFrom entry.2).length) := by
    intro g
    rw [List.zipIdx_map, List.filter_map, List.map_map]
    rfl
  rw [hnames d, hnames e, h.map_decls fun _ _ ↦ Decl.Alike.qualifiedName, h.relationsFrom]

/-! ### Extractions -/

theorem layers (h : d.Alike e) (seeds : List Nat) (k : Nat) :
    d.layers seeds k = e.layers seeds k := by
  induction k with
  | zero => rfl
  | succ k ih => simp only [Diagram.layers, ih, h.adjacent]

/-- **Two searches find the same handles in the same order.** -/
theorem within (h : d.Alike e) (seeds : List Nat) (depth : Nat) :
    d.within seeds depth = e.within seeds depth := by
  rw [within_eq_ball, within_eq_ball, ball, ball, h.layers]

theorem restrict (h : d.Alike e) (order : List Nat) :
    (d.restrict order).Alike (e.restrict order) := by
  have horder : List.Forall₂ Eq order order := List.forall₂_eq_eq_eq ▸ rfl
  refine ⟨List.rel_filterMap ?_ horder, ?_⟩
  · rintro x _ rfl
    exact h.decl? x
  · rw [Diagram.restrict, Diagram.restrict, h.relations]

theorem extract (h : d.Alike e) (seeds : List Nat) (depth : Nat) :
    (d.extract seeds depth).value.Alike (e.extract seeds depth).value := by
  simp only [Diagram.extract, h.within]
  exact h.restrict _

/-- The log of an extraction tells sizes only. -/
theorem log_extract (h : d.Alike e) (seeds : List Nat) (depth : Nat) :
    (d.extract seeds depth).log = (e.extract seeds depth).log := by
  have hpart := h.restrict (e.within seeds depth)
  simp only [Diagram.extract, h.within, hpart.length_decls, hpart.relations, h.length_decls,
    h.relations]

end Alike

/-! ## Two views -/

/-- What two answers show is the same: either both diagrams refuse to show a part, for the same
reason, or they show parts that are alike, so with the same handles and the same relations.  Then a
handle of the parts stands for the same handle in both diagrams, and the two logs are the same. -/
inductive SameView (d e : Diagram) :
    Except Error (Logged Diagram) → Except Error (Logged Diagram) → Prop where
  | refused (error : Error) : SameView d e (.error error) (.error error)
  | shown {part part' : Logged Diagram} {order : List Nat} {f : Nat → Nat}
    (alike : part.value.Alike part'.value) (lists : part.value.Lists d order f)
    (lists' : part'.value.Lists e order f) (log : part.log = part'.log) :
    SameView d e (.ok part) (.ok part')

variable {d e : Diagram}

theorem Alike.sameView_extract (h : d.Alike e) (hd : d.WellFormed) (he : e.WellFormed)
    {seeds : List Nat} (hs : ∀ s ∈ seeds, d.issued s = true) (depth : Nat) :
    SameView d e (.ok (d.extract seeds depth)) (.ok (e.extract seeds depth)) := by
  have hlists' := he.lists_extract (fun s hseed ↦ h.issued s ▸ hs s hseed) depth
  -- both parts are listed by one search, so one numbering serves them both
  rw [← h.within] at hlists'
  exact .shown (h.extract seeds depth) (hd.lists_extract hs depth) hlists'
    (h.log_extract seeds depth)

theorem Alike.sameView_neighbourhood (h : d.Alike e) (hd : d.WellFormed) (he : e.WellFormed)
    (seed depth : Nat) :
    SameView d e (d.neighbourhood seed depth) (e.neighbourhood seed depth) := by
  by_cases hseed : d.issued seed = true
  · have hseed' : e.issued seed = true := h.issued seed ▸ hseed
    rw [neighbourhood_eq_ok_iff.mpr ⟨hseed, rfl⟩, neighbourhood_eq_ok_iff.mpr ⟨hseed', rfl⟩]
    exact h.sameView_extract hd he (fun s hs ↦ List.mem_singleton.mp hs ▸ hseed) depth
  · have hseed' : ¬e.issued seed = true := h.issued seed ▸ hseed
    rw [neighbourhood, neighbourhood, check_of_not_issued hseed, check_of_not_issued hseed']
    exact .refused _

theorem Alike.sameView_focus (h : d.Alike e) (hd : d.WellFormed) (he : e.WellFormed)
    (name : String) (depth : Nat) :
    SameView d e (d.focus name depth) (e.focus name depth) := by
  have hnamed := h.handlesNamed name
  by_cases hnil : d.handlesNamed name = []
  · rw [focus_eq_error_iff.mpr ⟨rfl, hnil⟩, focus_eq_error_iff.mpr ⟨rfl, hnamed ▸ hnil⟩]
    exact .refused _
  · rw [focus_eq_ok_iff.mpr ⟨hnil, rfl⟩, focus_eq_ok_iff.mpr ⟨hnamed ▸ hnil, rfl⟩, ← hnamed]
    exact h.sameView_extract hd he (fun s hs ↦ issued_of_mem_handlesNamed hs) depth

end Diagram

/-! ## Two builds -/

namespace Inference

open Diagram

variable {decls decls' : List Decl}

/-- **Types that are alike build diagrams that are alike**, if the same ones of them are kept. -/
theorem alike_build (inference : Inference)
    (h : List.Forall₂ (fun decl decl' ↦ decl.Alike decl' ∧
      (inference.Keeps decl ↔ inference.Keeps decl')) decls decls') :
    (inference.build decls).value.Alike (inference.build decls').value := by
  have hkept : List.Forall₂ Decl.Alike (decls.filter fun decl ↦ inference.Keeps decl)
      (decls'.filter fun decl ↦ inference.Keeps decl) :=
    (List.rel_filter (fun decl decl' hdecl ↦ by simpa using hdecl.2) h).imp
      fun decl decl' hdecl ↦ hdecl.1
  rw [build_value, build_value]
  exact ⟨hkept, Settings.relations_eq_of_alike hkept⟩

/-- The log of a build says nothing that tells diagrams apart which are alike. -/
theorem log_build_eq_of_alike (inference : Inference) (hlength : decls.length = decls'.length)
    (h : (inference.build decls).value.Alike (inference.build decls').value) :
    (inference.build decls).log = (inference.build decls').log := by
  rw [inference.log_build decls, inference.log_build decls', h.map_senders, h.length_decls,
    h.relations, hlength]

/-- **An inference looks at names, packages, imports and the types of fields, and at nothing else.**
Take two lists of types that are alike, one by one, of which the inference keeps the same ones.
They may differ in the names of fields, in who may use a field and whether it is shown, in methods,
kinds, super types, interfaces, enclosing types, annotations and documentation.  The diagrams that
are built from the two lists have the same relations, the same handles and the same unused types,
and the logs are the same.  And whatever handle or name one asks for, at whatever depth, the two
diagrams show the same: the same handles of parts and wholes, with the same relations. -/
theorem build_noninterference (inference : Inference)
    (h : List.Forall₂ (fun decl decl' ↦ decl.Alike decl' ∧
      (inference.Keeps decl ↔ inference.Keeps decl')) decls decls') :
    let built := inference.build decls
    let built' := inference.build decls'
    built.value.relations = built'.value.relations ∧
    built.value.handles = built'.value.handles ∧
    built.value.unused = built'.value.unused ∧
    built.log = built'.log ∧
    (∀ seed depth, SameView built.value built'.value
      (built.value.neighbourhood seed depth) (built'.value.neighbourhood seed depth)) ∧
    ∀ name depth, SameView built.value built'.value
      (built.value.focus name depth) (built'.value.focus name depth) := by
  intro built built'
  have halike : built.value.Alike built'.value := inference.alike_build h
  have hbuilt : built.value.WellFormed := wellFormed_build inference decls
  have hbuilt' : built'.value.WellFormed := wellFormed_build inference decls'
  exact ⟨halike.relations, halike.handles, halike.unused,
    inference.log_build_eq_of_alike h.length_eq halike,
    halike.sameView_neighbourhood hbuilt hbuilt', halike.sameView_focus hbuilt hbuilt'⟩

theorem build_noninterference_trucks :
    let inference : Inference :=
      (({ settings := .packageAware } : Inference).requireTag "Entity").require fun decl ↦
        decl.doc ≠ some "internal"
    let entity (name : String) := (Decl.named name "app").withTag (.named "Entity")
    let homes := (Field.named "homes" "List").withTypeArgument "Address"
    let places := (Field.named "places" "List").withTypeArgument "Address"
    let user := (entity "User").withField homes
    -- A truck is named in every way that does not count.
    let user' := ((((((((entity "User").withKind .interfaceType).withField
      (places.withVisibility .owner).hide).withMethod (.named "drive" "Truck")).withSuperType
        "Truck").withInterface "Truck").withParentType "Truck").withTag (.named "Truck")).withDoc
          "Truck"
    let decls := [user, .named "Helper" "app", entity "Address", entity "Truck"]
    let decls' :=
      [user', (Decl.named "Helper" "app").withDoc "internal", entity "Address", entity "Truck"]
    let built := inference.build decls
    let built' := inference.build decls'
    (List.Forall₂ (fun decl decl' ↦ decl.Alike decl' ∧
      (inference.Keeps decl ↔ inference.Keeps decl')) decls decls' ∧ decls ≠ decls') ∧
    built.value.relations = [⟨0, 1, .encapsulates⟩] ∧
    built'.value.relations = [⟨0, 1, .encapsulates⟩] ∧
    (built'.value.unused = [2] ∧ built.value.unused = built'.value.unused) ∧
    built.log = built'.log ∧
    SameView built.value built'.value
      (built.value.neighbourhood 0 1) (built'.value.neighbourhood 0 1) ∧
    SameView built.value built'.value
      (built.value.focus "Address" 1) (built'.value.focus "Address" 1) := by
  intro inference entity homes places user user' decls decls' built built'
  have h : List.Forall₂ (fun decl decl' ↦ decl.Alike decl' ∧
      (inference.Keeps decl ↔ inference.Keeps decl')) decls decls' := by
    refine .cons ⟨⟨rfl, rfl, rfl, rfl⟩, ?_⟩ (.cons ⟨⟨rfl, rfl, rfl, rfl⟩, ?_⟩
      (.cons ⟨⟨rfl, rfl, rfl, rfl⟩, Iff.rfl⟩ (.cons ⟨⟨rfl, rfl, rfl, rfl⟩, Iff.rfl⟩ .nil)))
    · decide +kernel
    · decide +kernel
  obtain ⟨hrelations, -, hunused, hlog, hneighbourhood, hfocus⟩ := build_noninterference inference h
  have hfound : built'.value.relations = [⟨0, 1, .encapsulates⟩] := by decide +kernel
  exact ⟨⟨h, by decide +kernel⟩, hrelations.trans hfound, hfound, ⟨by decide +kernel, hunused⟩,
    hlog, hneighbourhood 0 1, hfocus "Address" 1⟩

end Inference
end TypeDiagram
