import TypeDiagram.Proofs.Inference
import Mathlib.Data.List.Forall2

/-!
# Declaring more relates more

A type may be declared in more detail: with further fields, with further arguments to the types of
its fields, with further imports.  An inference looks through all of these, and stops at the first
that fits.  None of them can stand in the way of another, so whatever is found in the shorter
declarations is found in the longer ones.

## What is here

* `Decl.ExtendedBy` — one declaration repeats another one with more in it.  Only what an inference
  looks at is compared; the rest may change in any way.
* `Settings.Refers.mono` — the references of a type are kept when declarations are extended.
* `Inference.build_monotone` — so the relations are kept, with their order.  The handles stay the
  same as long as the same types are kept, and nothing else decides about the order of relations.

That type arguments count is such a matter of detail as well: leaving them out of account finds
less.

## What is asked of the filters

An inference may keep or drop a type on account of what was added to it.  So it is asked, type by
type, that the longer declaration is kept exactly when the shorter one is.  Without this the handles
would shift, relations would be dropped together with their ends, and there would be nothing to
compare.

The order of the relations needs an argument of its own.  Relations are listed by the positions of
their ends in lexicographic order, so both lists are selections from one list of all pairs
(`Settings.relations_sublist`).  A selection by a weaker condition contains the one by a stronger
condition, in the same order.
-/

set_option autoImplicit false

namespace TypeDiagram

/-! ## Counterparts in another list -/

section Counterparts

variable {α β : Type} {R : α → β → Prop} {items : List α} {others : List β}

/-- If a list is embedded in another one, each of its items has a counterpart there. -/
theorem exists_mem_of_sublistForall₂ (h : items.SublistForall₂ R others) {item : α}
    (hitem : item ∈ items) : ∃ other ∈ others, R item other := by
  induction h with
  | nil => simp at hitem
  | cons hrelated _ ih =>
    rcases List.mem_cons.mp hitem with rfl | hitem
    · exact ⟨_, List.mem_cons_self, hrelated⟩
    · obtain ⟨other, hmem, hother⟩ := ih hitem
      exact ⟨other, List.mem_cons_of_mem _ hmem, hother⟩
  | cons_right _ ih =>
    obtain ⟨other, hmem, hother⟩ := ih hitem
    exact ⟨other, List.mem_cons_of_mem _ hmem, hother⟩

/-- If two lists correspond item by item, the counterpart stands at the same position. -/
theorem exists_getElem?_of_forall₂ (h : List.Forall₂ R items others) {i : Nat} {item : α}
    (hi : items[i]? = some item) : ∃ other, others[i]? = some other ∧ R item other := by
  obtain ⟨hlt, rfl⟩ := List.getElem?_eq_some_iff.mp hi
  have hlt' : i < others.length := h.length_eq ▸ hlt
  exact ⟨others[i], List.getElem?_eq_getElem hlt', h.get hlt hlt'⟩

end Counterparts

/-! ## Longer declarations -/

/-- The second field has the same declared type as the first one, with more type arguments inserted
anywhere. -/
structure Field.ExtendedBy (field field' : Field) : Prop where
  typeName : field'.typeName = field.typeName
  typeArguments : field.typeArguments.Sublist field'.typeArguments

/-- The second type has the name and the package of the first one, its imports and its fields, with
more imports and more fields inserted anywhere, and more type arguments in the fields. -/
structure Decl.ExtendedBy (decl decl' : Decl) : Prop where
  name : decl'.name = decl.name
  package : decl'.package = decl.package
  imports : decl.imports.Sublist decl'.imports
  /-- Each field is found again, extended, and in the same order. -/
  fields : decl.fields.SublistForall₂ Field.ExtendedBy decl'.fields

variable {source source' target target' : Decl}

theorem Decl.ExtendedBy.qualifiedName (h : target.ExtendedBy target') :
    target'.qualifiedName = target.qualifiedName := by
  simp [Decl.qualifiedName, h.name, h.package]

/-! ## References are kept -/

theorem Settings.Considers.mono {s : Settings} {field field' : Field} {name : String}
    (h : s.Considers field name) (hext : field.ExtendedBy field') : s.Considers field' name := by
  cases h with
  | declared => exact hext.typeName ▸ .declared
  | argument hargs hname => exact .argument hargs (hext.typeArguments.subset hname)

theorem Decl.Visible.mono (h : source.Visible target) (hsource : source.ExtendedBy source')
    (htarget : target.ExtendedBy target') : source'.Visible target' := by
  cases h with
  | sourceUnknown h => exact .sourceUnknown (hsource.package.trans h)
  | targetUnknown h => exact .targetUnknown (htarget.package.trans h)
  | samePackage h => exact .samePackage (by rw [hsource.package, htarget.package, h])
  | imported h => exact .imported (htarget.qualifiedName ▸ hsource.imports.subset h)
  | packageImported h => exact .packageImported (htarget.package ▸ hsource.imports.subset h)

theorem MatchMode.Denotes.mono {mode : MatchMode} {name : String}
    (h : mode.Denotes source name target) (hsource : source.ExtendedBy source')
    (htarget : target.ExtendedBy target') : mode.Denotes source' name target' := by
  cases h with
  | simple h => exact .simple (h.trans htarget.name.symm)
  | qualified hdot h => exact .qualified hdot (h.trans htarget.qualifiedName.symm)
  | visible hdot h hv => exact .visible hdot (h.trans htarget.name.symm) (hv.mono hsource htarget)

/-- **A type still refers to another one when both are declared in more detail.** -/
theorem Settings.Refers.mono {s : Settings} (h : s.Refers source target)
    (hsource : source.ExtendedBy source') (htarget : target.ExtendedBy target') :
    s.Refers source' target' := by
  obtain ⟨field, hfield, name, hname, hdenotes⟩ := h
  obtain ⟨field', hfield', hext⟩ := exists_mem_of_sublistForall₂ hsource.fields hfield
  exact ⟨field', hfield', name, hname.mono hext, hdenotes.mono hsource htarget⟩

/-! ## Relations are kept -/

namespace Settings

/-- Settings that let the type arguments count, or not. -/
def withArguments (s : Settings) (count : Bool) : Settings := { s with matchTypeArguments := count }

variable {s : Settings} {decls decls' : List Decl}

theorem relations_sublist_of_extendedBy (h : List.Forall₂ Decl.ExtendedBy decls decls') :
    (s.relations decls).Sublist (s.relations decls') := by
  refine relations_sublist h.length_eq fun i j ↦ ?_
  rintro ⟨hij, source, hi, target, hj, hrefers⟩
  obtain ⟨source', hi', hsource⟩ := exists_getElem?_of_forall₂ h hi
  obtain ⟨target', hj', htarget⟩ := exists_getElem?_of_forall₂ h hj
  exact ⟨hij, source', hi', target', hj', hrefers.mono hsource htarget⟩

/-- What counts without the type arguments counts with them. -/
theorem Considers.withArguments {field : Field} {name : String}
    (h : (s.withArguments false).Considers field name) :
    (s.withArguments true).Considers field name := by
  cases h with
  | declared => exact .declared
  | argument hargs => exact nomatch hargs

theorem relations_sublist_withArguments :
    ((s.withArguments false).relations decls).Sublist ((s.withArguments true).relations decls) := by
  refine relations_sublist rfl fun i j hij ↦ hij.imp fun source target _ _ ↦ ?_
  rintro ⟨field, hfield, name, hname, hdenotes⟩
  exact ⟨field, hfield, name, hname.withArguments, hdenotes⟩

end Settings

/-! ## Building from longer declarations -/

namespace Inference

/-- The same inference, with or without the type arguments. -/
def withArguments (inference : Inference) (count : Bool) : Inference :=
  { inference with settings := inference.settings.withArguments count }

/-- **Declaring more relates more.**  Take two lists of types, where each type of the second one
extends the type of the first one at the same position, and the inference keeps both of the two or
neither.  Then the relations that are built from the first list are found among those that are built
from the second one, between the same handles and in the same order.  And from one list of types,
the relations that are built without the type arguments are found among those that are built with
them, in the same way. -/
theorem build_monotone (inference : Inference) :
    (∀ decls decls', List.Forall₂ (fun decl decl' ↦ decl.ExtendedBy decl' ∧
        (inference.Keeps decl ↔ inference.Keeps decl')) decls decls' →
      (inference.build decls).value.relations.Sublist (inference.build decls').value.relations) ∧
    ∀ decls, ((inference.withArguments false).build decls).value.relations.Sublist
      ((inference.withArguments true).build decls).value.relations := by
  refine ⟨fun decls decls' h ↦ ?_, fun decls ↦ ?_⟩
  · have hkept : List.Forall₂ Decl.ExtendedBy
        (decls.filter fun decl ↦ inference.Keeps decl)
        (decls'.filter fun decl ↦ inference.Keeps decl) :=
      (List.rel_filter (fun decl decl' hdecl ↦ by simpa using hdecl.2) h).imp
        fun decl decl' hdecl ↦ hdecl.1
    rw [build_value, build_value]
    exact Settings.relations_sublist_of_extendedBy hkept
  · rw [build_value, build_value]
    exact Settings.relations_sublist_withArguments

theorem build_monotone_imports :
    let inference : Inference :=
      ({ settings := .packageAware } : Inference).require fun decl ↦ decl.name ≠ "Helper"
    let nodes := (Field.named "nodes" "Map").withTypeArgument "Key"
    let tree := (Decl.named "Tree" "a").withField nodes
    let tree' := (((Decl.named "Tree" "a").withField (.named "root" "Node")).withField
      (nodes.withTypeArgument "Leaf")).withImport "b.*"
    let others : List Decl := [.named "Key" "a", .named "Node" "b", .named "Leaf" "a"]
    let decls := .named "Helper" "a" :: tree :: others
    let decls' := .named "Helper" "a" :: tree' :: others
    let extended (decl decl' : Decl) : Prop :=
      decl.ExtendedBy decl' ∧ (inference.Keeps decl ↔ inference.Keeps decl')
    (List.Forall₂ extended decls decls' ∧
      (inference.build decls).value.relations.Sublist (inference.build decls').value.relations) ∧
    (inference.build decls).value.relations = [⟨0, 1, .encapsulates⟩] ∧
    (inference.build decls').value.relations =
      [⟨0, 1, .encapsulates⟩, ⟨0, 2, .encapsulates⟩, ⟨0, 3, .encapsulates⟩] ∧
    ((inference.withArguments false).build decls').value.relations.Sublist
      ((inference.withArguments true).build decls').value.relations := by
  intro inference nodes tree tree' others decls decls' extended
  have hself : ∀ decl : Decl, decl.fields = [] → extended decl decl := fun decl hfields ↦
    ⟨⟨rfl, rfl, .refl _, hfields ▸ .nil⟩, Iff.rfl⟩
  have htree : extended tree tree' := by
    refine ⟨⟨rfl, rfl, List.nil_sublist _, .cons_right (.cons ⟨rfl, ?_⟩ .nil)⟩, ?_⟩
    · exact List.sublist_append_left _ _
    · decide +kernel
  have h : List.Forall₂ extended decls decls' :=
    .cons (hself _ rfl) (.cons htree (.cons (hself _ rfl) (.cons (hself _ rfl)
      (.cons (hself _ rfl) .nil))))
  have hmonotone : _ ∧ _ := build_monotone inference
  exact ⟨⟨h, hmonotone.1 decls decls' h⟩, by decide +kernel, by decide +kernel, hmonotone.2 decls'⟩

end Inference
end TypeDiagram
