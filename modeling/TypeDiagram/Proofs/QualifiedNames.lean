import TypeDiagram.Proofs.Locality
import Mathlib.Combinatorics.Enumerative.DoubleCounting

/-!
# A qualified name stands for one type

A qualified name is one piece of text, and the dot between the package and the name looks like the
dots inside the package.  Still, the two parts can be told apart if the name itself has no dot in
it: the name is what stands behind the last dot, and if there is no dot, there is no package.  So
types with such names have different qualified names unless they agree in package and name
(`Decl.qualifiedName_inj`).

For an inference this means that a name with a dot in it has one meaning, wherever it is used
(`Decl.Distinguished.eq_of_qualifiedName_eq`).  A type that uses such names only can then be related
to no more types than it uses names: each relation comes from a name, and no name gives two of them
(`Diagram.InferredBy.length_relationsFrom_le`).

The packages may have dots in them, and one may be the beginning of another: `a.b.C` is the type `C`
of the package `a.b`, and never a type `b.C` of `a`, because names have no dots.  A type without a
package has a qualified name without a dot, so no name with a dot in it stands for that type.

The count is of different names.  It says nothing about a type that also uses simple names, since
one of those may stand for many types.

## What is here

* `append_separator_inj` — a text can be cut at its last separator in one way only.
* `Decl.qualifiedName_inj` and `Decl.Distinguished` — types without dots in their names are told
  apart by their qualified names if package and name tell them apart.
* `Settings.references` — the names that a type uses, with repetitions.  Whatever it refers to, it
  refers to by one of these (`Settings.refers_iff_exists_references`).
* `Diagram.InferredBy.length_relationsFrom_le` — **no more relations than names**.
-/

set_option autoImplicit false

namespace TypeDiagram

/-! ## Cutting at the last separator -/

section Separator

variable {α : Type} {separator : α} {before before' after after' : List α}

theorem eq_nil_of_cons_eq_append_cons (h : separator ∉ after)
    (heq : separator :: after = before ++ separator :: after') : before = [] := by
  cases before with
  | nil => rfl
  | cons first rest =>
    -- otherwise the separator on the right stands behind the one on the left
    obtain ⟨-, rfl⟩ := List.cons.inj heq
    simp at h

/-- **A list is cut at its last separator in one way.** -/
theorem append_separator_inj (h : separator ∉ after) (h' : separator ∉ after')
    (heq : before ++ separator :: after = before' ++ separator :: after') :
    before = before' ∧ after = after' := by
  rcases List.append_eq_append_iff.mp heq with ⟨rest, hbefore, hafter⟩ | ⟨rest, hbefore, hafter⟩
  · obtain rfl := eq_nil_of_cons_eq_append_cons h hafter
    exact ⟨by simpa using hbefore.symm, by simpa using hafter⟩
  · obtain rfl := eq_nil_of_cons_eq_append_cons h' hafter
    exact ⟨by simpa using hbefore, by simpa using hafter.symm⟩

end Separator

/-! ## Qualified names -/

namespace Decl

/-- **Package and name can be read off a qualified name**, if the name has no dot in it. -/
theorem qualifiedName_inj {a b : Decl} (ha : '.' ∉ a.name.toList) (hb : '.' ∉ b.name.toList)
    (h : a.qualifiedName = b.qualifiedName) : a.package = b.package ∧ a.name = b.name := by
  by_cases hpa : a.package = ""
  · rw [qualifiedName_of_unknown hpa] at h
    by_cases hpb : b.package = ""
    · exact ⟨hpa.trans hpb.symm, h.trans (qualifiedName_of_unknown hpb)⟩
    · -- one side has no dot, and the other one has
      rw [h, toList_qualifiedName hpb] at ha
      simp at ha
  · by_cases hpb : b.package = ""
    · rw [← qualifiedName_of_unknown hpb, ← h, toList_qualifiedName hpa] at hb
      simp at hb
    · rw [← String.toList_inj, toList_qualifiedName hpa, toList_qualifiedName hpb] at h
      obtain ⟨hpackage, hname⟩ := append_separator_inj ha hb h
      exact ⟨String.toList_inj.mp hpackage, String.toList_inj.mp hname⟩

/-- The types have no dots in their names, and no two of them agree in package and name. -/
structure Distinguished (decls : List Decl) : Prop where
  plain : ∀ decl ∈ decls, '.' ∉ decl.name.toList
  nodup : (decls.map fun decl ↦ (decl.package, decl.name)).Nodup

theorem Distinguished.filter {decls : List Decl} (h : Distinguished decls) (p : Decl → Bool) :
    Distinguished (decls.filter p) :=
  ⟨fun decl hdecl ↦ h.plain decl (List.mem_of_mem_filter hdecl),
    h.nodup.sublist (List.filter_sublist.map _)⟩

/-- **Distinguished types have different qualified names.** -/
theorem Distinguished.eq_of_qualifiedName_eq {decls : List Decl} (h : Distinguished decls)
    {i j : Nat} {a b : Decl} (hi : decls[i]? = some a) (hj : decls[j]? = some b)
    (hab : a.qualifiedName = b.qualifiedName) : i = j := by
  obtain ⟨hpackage, hname⟩ := qualifiedName_inj (h.plain a (List.mem_of_getElem? hi))
    (h.plain b (List.mem_of_getElem? hj)) hab
  refine (List.getElem?_inj ?_ h.nodup).mp ?_
  · simpa using (List.getElem?_eq_some_iff.mp hi).1
  · simp [hi, hj, hpackage, hname]

end Decl

/-! ## Names with dots in them -/

/-- A name with a dot in it stands for the type with this qualified name. -/
theorem MatchMode.Denotes.eq_qualifiedName {source target : Decl} {name : String}
    (h : packageAware.Denotes source name target) (hdot : '.' ∈ name.toList) :
    name = target.qualifiedName := by
  cases h with
  | qualified _ h => exact h
  | visible hno => exact absurd hdot hno

namespace Settings

/-- The names that count in the fields of a type, field by field. -/
def references (s : Settings) (decl : Decl) : List String := decl.fields.flatMap s.considered

theorem refers_iff_exists_references {s : Settings} {source target : Decl} :
    s.Refers source target ↔
      ∃ name ∈ s.references source, s.matchMode.Denotes source name target := by
  simp only [Refers, references, List.mem_flatMap, mem_considered_iff]
  refine ⟨?_, ?_⟩
  · rintro ⟨field, hfield, name, hname, hdenotes⟩
    exact ⟨name, ⟨field, hfield, hname⟩, hdenotes⟩
  · rintro ⟨name, ⟨field, hfield, hname⟩, hdenotes⟩
    exact ⟨field, hfield, name, hname, hdenotes⟩

end Settings

/-! ## How many relations lead away from a type -/

namespace Diagram

variable {s : Settings} {d : Diagram}

/-- A relation comes from a name. -/
theorem InferredBy.exists_name (hd : d.InferredBy s) {i : Nat} {source : Decl} {r : Relation}
    (hsource : d.decl? i = some source) (hr : r ∈ d.relationsFrom i) :
    ∃ name ∈ s.references source, ∃ target, d.decl? r.target = some target ∧
      s.matchMode.Denotes source name target := by
  rw [relationsFrom, List.mem_filter, decide_eq_true_eq, hd] at hr
  obtain ⟨hr, rfl⟩ := hr
  obtain ⟨⟨-, source', hsource', target, htarget, hrefers⟩, -⟩ := Settings.mem_relations_iff.mp hr
  obtain rfl : source' = source := Option.some.inj (hsource'.symm.trans hsource)
  obtain ⟨name, hname, hdenotes⟩ := Settings.refers_iff_exists_references.mp hrefers
  exact ⟨name, hname, target, htarget, hdenotes⟩

/-- Relations from one type are told apart by their targets. -/
theorem InferredBy.eq_of_target_eq (hd : d.InferredBy s) {i : Nat} {r r' : Relation}
    (hr : r ∈ d.relationsFrom i) (hr' : r' ∈ d.relationsFrom i) (h : r.target = r'.target) :
    r = r' := by
  rw [relationsFrom, List.mem_filter, decide_eq_true_eq, hd, Settings.mem_relations_iff] at hr hr'
  obtain ⟨⟨-, hkind⟩, hsource⟩ := hr
  obtain ⟨⟨-, hkind'⟩, hsource'⟩ := hr'
  cases r
  cases r'
  rw [Relation.mk.injEq]
  exact ⟨hsource.trans hsource'.symm, h, hkind.trans hkind'.symm⟩

/-- The name is the qualified name of the type to which the relation leads. -/
def LeadsTo (d : Diagram) (r : Relation) (name : String) : Prop :=
  ∃ target, d.decl? r.target = some target ∧ name = target.qualifiedName

/-- **A type that uses qualified names only is related to no more types than it uses names.** -/
theorem InferredBy.length_relationsFrom_le (hd : d.InferredBy s)
    (hmode : s.matchMode = .packageAware) (h : Decl.Distinguished d.decls) {i : Nat}
    {source : Decl} (hsource : d.decl? i = some source)
    (hdots : ∀ name ∈ s.references source, '.' ∈ name.toList) :
    (d.relationsFrom i).length ≤ (s.references source).toFinset.card := by
  have hnodup : (d.relationsFrom i).Nodup := by
    rw [relationsFrom, hd]
    exact Settings.nodup_relations.filter _
  rw [← List.toFinset_card_of_nodup hnodup]
  -- each relation leads to one of the names, and no two of them to the same one
  refine Finset.card_le_card_of_forall_subsingleton d.LeadsTo (fun r hr ↦ ?_) fun name _ ↦ ?_
  · obtain ⟨name, hname, target, htarget, hdenotes⟩ :=
      hd.exists_name hsource (List.mem_toFinset.mp hr)
    rw [hmode] at hdenotes
    exact ⟨name, List.mem_toFinset.mpr hname, target, htarget,
      hdenotes.eq_qualifiedName (hdots name hname)⟩
  · rintro r ⟨hr, target, htarget, hname⟩ r' ⟨hr', target', htarget', hname'⟩
    have hsame := h.eq_of_qualifiedName_eq htarget htarget' (hname.symm.trans hname')
    exact hd.eq_of_target_eq (List.mem_toFinset.mp hr) (List.mem_toFinset.mp hr') hsame

end Diagram

namespace Inference

/-- **A qualified name is unambiguous.**  Let the types have no dots in their names, let no two of
them agree in package and name, and let the inference be package-aware.  Types with such names have
different qualified names unless they agree in package and name, whatever the packages look like.
So a name with a dot in it stands for at most one type of the built diagram, and it is the same one
wherever the name is used.  And a type all of whose names have dots in them is related to no more
types than the number of different names that it uses. -/
theorem qualified_unambiguous {inference : Inference} {decls : List Decl}
    (hmode : inference.settings.matchMode = .packageAware)
    (hplain : ∀ decl ∈ decls, '.' ∉ decl.name.toList)
    (hdistinct : (decls.map fun decl ↦ (decl.package, decl.name)).Nodup) :
    let settings := inference.settings
    let built := (inference.build decls).value
    (∀ a b : Decl, '.' ∉ a.name.toList → '.' ∉ b.name.toList →
      a.qualifiedName = b.qualifiedName → a.package = b.package ∧ a.name = b.name) ∧
    (∀ name : String, '.' ∈ name.toList → ∀ source source' : Decl, ∀ i j,
      ∀ target ∈ built.decl? i, ∀ target' ∈ built.decl? j,
        settings.matchMode.resolves source name target = true →
        settings.matchMode.resolves source' name target' = true → i = j) ∧
    ∀ i, ∀ source ∈ built.decl? i, (∀ name ∈ settings.references source, '.' ∈ name.toList) →
      (built.relationsFrom i).length ≤ (settings.references source).toFinset.card := by
  intro settings built
  have hdecls : built.decls = decls.filter fun decl ↦ inference.Keeps decl :=
    congrArg Diagram.decls (inference.build_value decls)
  have hkept : Decl.Distinguished built.decls := by
    rw [hdecls]
    exact Decl.Distinguished.filter ⟨hplain, hdistinct⟩ _
  refine ⟨fun a b ↦ Decl.qualifiedName_inj, ?_, fun i source hsource hdots ↦ ?_⟩
  · intro name hdot source source' i j target hi target' hj hresolves hresolves'
    rw [hmode, MatchMode.resolves_iff] at hresolves hresolves'
    exact hkept.eq_of_qualifiedName_eq hi hj
      ((hresolves.eq_qualifiedName hdot).symm.trans (hresolves'.eq_qualifiedName hdot))
  · have hbuilt := Diagram.inferredBy_build inference decls
    exact hbuilt.length_relationsFrom_le hmode hkept hsource hdots

theorem qualified_unambiguous_packages :
    let inference : Inference := { settings := .packageAware }
    let tree := ((((Decl.named "Tree" "a").withField (.named "root" "a.b.Node")).withField
      (.named "last" "a.b.Node")).withField (.named "leaf" "b.Leaf")).withField
      (.named "other" "c.Leaf")
    let decls : List Decl :=
      [tree, .named "Node" "a.b", .named "Node" "a", .named "Leaf" "b", .named "Leaf" ""]
    let built := (inference.build decls).value
    let references := inference.settings.references tree
    (inference.settings.matchMode = .packageAware ∧
      (∀ decl ∈ decls, '.' ∉ decl.name.toList) ∧
      (decls.map fun decl ↦ (decl.package, decl.name)).Nodup) ∧
    (Decl.named "Node" "a" ∈ built.decl? 2 ∧
      MatchMode.packageAware.resolves tree "a.Node" (.named "Node" "a") = true ∧
      ∀ j, ∀ target ∈ built.decl? j,
        MatchMode.packageAware.resolves (.named "Leaf" "") "a.Node" target = true → 2 = j) ∧
    (tree ∈ built.decl? 0 ∧ (∀ name ∈ references, '.' ∈ name.toList) ∧
      (built.relationsFrom 0).length = 2 ∧ references.length = 4 ∧ references.toFinset.card = 3 ∧
      (built.relationsFrom 0).length ≤ references.toFinset.card) := by
  intro inference tree decls built references
  have hmode : inference.settings.matchMode = .packageAware := rfl
  have hplain : ∀ decl ∈ decls, '.' ∉ decl.name.toList := by decide +kernel
  have hdistinct : (decls.map fun decl ↦ (decl.package, decl.name)).Nodup := by decide +kernel
  have hnode : Decl.named "Node" "a" ∈ built.decl? 2 := by decide +kernel
  have hdot : '.' ∈ "a.Node".toList := by decide +kernel
  have hresolves : MatchMode.packageAware.resolves tree "a.Node" (.named "Node" "a") = true := by
    decide +kernel
  have htree : tree ∈ built.decl? 0 := by decide +kernel
  have hdots : ∀ name ∈ references, '.' ∈ name.toList := by decide +kernel
  obtain ⟨-, hunique, hcount⟩ := qualified_unambiguous hmode hplain hdistinct
  exact ⟨⟨hmode, hplain, hdistinct⟩,
    ⟨hnode, hresolves, fun j target htarget ↦
      hunique "a.Node" hdot tree _ 2 j _ hnode target htarget hresolves⟩,
    htree, hdots, by decide +kernel, by decide +kernel, by decide +kernel,
    hcount 0 tree htree hdots⟩

end Inference
end TypeDiagram
