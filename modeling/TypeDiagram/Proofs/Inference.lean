import TypeDiagram.Inference.Basic
import Mathlib.Data.List.ProdSigma
import Mathlib.Data.List.Nodup

/-!
# What an inference finds

An inference selects types, collects what each of them encapsulates, and adds relations one by one
to a diagram that may refuse them.  This file says in advance what comes out.

## What is here

* `Inference.Keeps`, `Settings.Considers`, `MatchMode.Denotes` and `Settings.Refers` — the rules of
  the inference, one clause for each case, without any computation.  `Settings.mentions_iff` says
  that the test which an inference performs decides them.
* `Settings.relations` — the relations among a list of types: all pairs of positions in
  lexicographic order, as far as the first type refers to the second one.
* `Inference.build_value` — **the built diagram consists of the kept types and their relations**.

The three stages meet in two places.  Collecting targets type by type and dropping the types without
targets lists the pairs in lexicographic order (`Inference.flatMap_relations_encapsulations`).  And
none of the additions is refused or found superfluous, since the handles are issued and no pair is
listed twice (`Inference.foldl_connect`).

## The rules

A field refers to types by the name of its own type and, if the settings say so, by the names of its
type arguments.  By simple name, a name stands for all types that are called so.  Package-aware, a
name with a dot in it has to be the qualified name of the type; one without a dot has to be its
simple name, and the type has to be visible: in the same package, by an import, or because one of
the two packages is not known.  The last clause is a generous one.  A type without a package is
found from everywhere by its simple name, and finds types everywhere.

The rules are inductive families, so that they can be read one clause at a time, and a proof can
take them apart in the same way.  That they can be decided is no part of them; it follows from
`Settings.mentions_iff` and the lemmas before it.
-/

set_option autoImplicit false

namespace TypeDiagram

/-! ## The rules -/

/-- The type carries every required annotation and passes every filter. -/
def Inference.Keeps (inference : Inference) (decl : Decl) : Prop :=
  (∀ name ∈ inference.settings.requiredTags, ∃ t ∈ decl.tags, t.typeName = name) ∧
    ∀ f ∈ inference.filters, f.accepts decl = true

instance (inference : Inference) (decl : Decl) : Decidable (inference.Keeps decl) :=
  inferInstanceAs (Decidable (_ ∧ _))

/-- The names in a field that count. -/
inductive Settings.Considers (s : Settings) (field : Field) : String → Prop
  /-- The declared type counts. -/
  | declared : Considers s field field.typeName
  /-- The type arguments count if the settings say so. -/
  | argument {name : String} (h : s.matchTypeArguments = true)
      (hname : name ∈ field.typeArguments) : Considers s field name

/-- The simple name of `target` is understood inside `source`. -/
inductive Decl.Visible (source target : Decl) : Prop
  /-- The package of `source` is not known. -/
  | sourceUnknown (h : source.package = "")
  /-- The package of `target` is not known. -/
  | targetUnknown (h : target.package = "")
  | samePackage (h : source.package = target.package)
  | imported (h : target.qualifiedName ∈ source.imports)
  /-- The whole package of `target` is imported. -/
  | packageImported (h : target.package ++ ".*" ∈ source.imports)

/-- A name that is used inside `source` stands for `target`. -/
inductive MatchMode.Denotes (source : Decl) (name : String) (target : Decl) : MatchMode → Prop
  | simple (h : name = target.name) : Denotes source name target .simpleName
  | qualified (hdot : '.' ∈ name.toList) (h : name = target.qualifiedName) :
      Denotes source name target .packageAware
  | visible (hdot : '.' ∉ name.toList) (h : name = target.name) (hv : source.Visible target) :
      Denotes source name target .packageAware

/-- Some name that counts in a field of `source` stands for `target`. -/
def Settings.Refers (s : Settings) (source target : Decl) : Prop :=
  ∃ field ∈ source.fields, ∃ name, s.Considers field name ∧ s.matchMode.Denotes source name target

/-! ## The rules are what is tested -/

theorem Inference.keeps_iff {inference : Inference} {decl : Decl} :
    inference.keeps decl = true ↔ inference.Keeps decl := by
  rw [keeps, Bool.and_eq_true, List.all_eq_true, List.all_eq_true]
  simp only [Decl.hasTag_iff, Keeps]

theorem Decl.sees_iff {source target : Decl} :
    source.sees target = true ↔ source.Visible target := by
  simp only [sees, Bool.or_eq_true, decide_eq_true_eq, List.any_eq_true]
  refine ⟨?_, ?_⟩
  · rintro (((h | h) | h) | ⟨name, hname, rfl | rfl⟩)
    · exact .sourceUnknown h
    · exact .targetUnknown h
    · exact .samePackage h
    · exact .imported hname
    · exact .packageImported hname
  · intro h
    cases h with
    | sourceUnknown h => exact .inl (.inl (.inl h))
    | targetUnknown h => exact .inl (.inl (.inr h))
    | samePackage h => exact .inl (.inr h)
    | imported h => exact .inr ⟨_, h, .inl rfl⟩
    | packageImported h => exact .inr ⟨_, h, .inr rfl⟩

theorem MatchMode.resolves_iff {mode : MatchMode} {source target : Decl} {name : String} :
    mode.resolves source name target = true ↔ mode.Denotes source name target := by
  cases mode with
  | simpleName =>
    rw [resolves, decide_eq_true_eq]
    refine ⟨.simple, fun h ↦ ?_⟩
    cases h with
    | simple h => exact h
  | packageAware =>
    rw [resolves]
    split
    · next hdot =>
      rw [decide_eq_true_eq]
      refine ⟨.qualified hdot, fun h ↦ ?_⟩
      cases h with
      | qualified _ h => exact h
      | visible hno => exact absurd hdot hno
    · next hno =>
      rw [Bool.and_eq_true, decide_eq_true_eq, Decl.sees_iff]
      refine ⟨fun h ↦ .visible hno h.1 h.2, fun h ↦ ?_⟩
      cases h with
      | qualified hdot => exact absurd hdot hno
      | visible _ h hv => exact ⟨h, hv⟩

theorem Settings.mem_considered_iff {s : Settings} {field : Field} {name : String} :
    name ∈ s.considered field ↔ s.Considers field name := by
  rw [considered]
  split
  · next harg =>
    rw [Field.referencedNames, List.mem_cons]
    refine ⟨?_, ?_⟩
    · rintro (rfl | h)
      · exact .declared
      · exact .argument harg h
    · intro h
      cases h with
      | declared => exact .inl rfl
      | argument _ h => exact .inr h
  · next harg =>
    rw [List.mem_singleton]
    refine ⟨?_, ?_⟩
    · rintro rfl
      exact .declared
    · intro h
      cases h with
      | declared => rfl
      | argument h => exact absurd h harg

/-- **The test which an inference performs decides whether one type refers to another.** -/
theorem Settings.mentions_iff {s : Settings} {source target : Decl} :
    s.mentions source target = true ↔ s.Refers source target := by
  rw [mentions, Refers, List.any_eq_true]
  simp only [List.any_eq_true, mem_considered_iff, MatchMode.resolves_iff]

instance (s : Settings) (source target : Decl) : Decidable (s.Refers source target) :=
  decidable_of_iff _ Settings.mentions_iff

/-! ## The relations among a list of types -/

namespace Settings

/-- The type at position `i` refers to the type at position `j`, which is another one. -/
def Relates (s : Settings) (decls : List Decl) (i j : Nat) : Prop :=
  i ≠ j ∧ ∃ source ∈ decls[i]?, ∃ target ∈ decls[j]?, s.Refers source target

instance (s : Settings) (decls : List Decl) (i j : Nat) : Decidable (s.Relates decls i j) :=
  inferInstanceAs (Decidable (_ ∧ _))

/-- The pairs of positions at which one type refers to another, in lexicographic order. -/
def pairs (s : Settings) (decls : List Decl) : List (Nat × Nat) :=
  (List.range decls.length ×ˢ List.range decls.length).filter fun p ↦ s.Relates decls p.1 p.2

/-- The relations among a list of types, in lexicographic order. -/
def relations (s : Settings) (decls : List Decl) : List Relation :=
  (s.pairs decls).map fun p ↦ ⟨p.1, p.2, .encapsulates⟩

variable {s : Settings} {decls : List Decl}

theorem Relates.lt {i j : Nat} (h : s.Relates decls i j) :
    i < decls.length ∧ j < decls.length := by
  obtain ⟨-, source, hi, target, hj, -⟩ := h
  exact ⟨(List.getElem?_eq_some_iff.mp hi).1, (List.getElem?_eq_some_iff.mp hj).1⟩

/-- Other settings relate two positions as well, if one type refers to the other by them too. -/
theorem Relates.imp {s' : Settings} {i j : Nat} (h : s.Relates decls i j)
    (hrefers : ∀ source target, decls[i]? = some source → decls[j]? = some target →
      s.Refers source target → s'.Refers source target) : s'.Relates decls i j := by
  obtain ⟨hij, source, hi, target, hj, h⟩ := h
  exact ⟨hij, source, hi, target, hj, hrefers source target hi hj h⟩

theorem mem_pairs_iff {p : Nat × Nat} : p ∈ s.pairs decls ↔ s.Relates decls p.1 p.2 := by
  obtain ⟨i, j⟩ := p
  rw [pairs, List.mem_filter, decide_eq_true_eq, List.mem_product, List.mem_range, List.mem_range]
  exact ⟨fun h ↦ h.2, fun h ↦ ⟨h.lt, h⟩⟩

theorem mem_relations_iff {r : Relation} :
    r ∈ s.relations decls ↔ s.Relates decls r.source r.target ∧ r.kind = .encapsulates := by
  rw [relations, List.mem_map]
  refine ⟨?_, ?_⟩
  · rintro ⟨p, hp, rfl⟩
    exact ⟨mem_pairs_iff.mp hp, rfl⟩
  · rintro ⟨hr, hk⟩
    exact ⟨(r.source, r.target), mem_pairs_iff.mpr hr, by rw [← hk]⟩

/-- The relations, source by source. -/
theorem relations_eq_flatMap :
    s.relations decls = (List.range decls.length).flatMap fun i ↦
      ((List.range decls.length).filter fun j ↦ s.Relates decls i j).map
        fun j ↦ ⟨i, j, .encapsulates⟩ := by
  have hproduct : List.range decls.length ×ˢ List.range decls.length =
      (List.range decls.length).flatMap fun i ↦ (List.range decls.length).map (Prod.mk i) := rfl
  rw [relations, pairs, hproduct, List.filter_flatMap, List.map_flatMap]
  refine List.flatMap_congr fun i _ ↦ ?_
  rw [List.filter_map, List.map_map]
  rfl

/-- The pairs are strictly ascending. -/
theorem pairwise_pairs : (s.pairs decls).Pairwise (Prod.Lex (· < ·) (· < ·)) := by
  refine List.Pairwise.filter _ (List.pairwise_flatMap.mpr ⟨fun i _ ↦ ?_, ?_⟩)
  · rw [List.pairwise_map]
    exact List.pairwise_lt_range.imp fun h ↦ Prod.Lex.right i h
  · refine List.pairwise_lt_range.imp fun h p hp q hq ↦ ?_
    obtain ⟨-, -, rfl⟩ := List.mem_map.mp hp
    obtain ⟨-, -, rfl⟩ := List.mem_map.mp hq
    exact Prod.Lex.left _ _ h

theorem nodup_pairs : (s.pairs decls).Nodup :=
  (List.nodup_range.product List.nodup_range).filter _

theorem map_relations : (s.relations decls).map (fun r ↦ (r.source, r.target)) = s.pairs decls := by
  rw [relations, List.map_map]
  exact List.map_id _

theorem nodup_relations : (s.relations decls).Nodup :=
  .of_map (fun r ↦ (r.source, r.target)) (map_relations ▸ nodup_pairs)

/-- **More pairs give more relations**, and the relations that were there keep their order. -/
theorem relations_sublist {s' : Settings} {decls' : List Decl}
    (hlength : decls.length = decls'.length)
    (h : ∀ i j, s.Relates decls i j → s'.Relates decls' i j) :
    (s.relations decls).Sublist (s'.relations decls') := by
  rw [relations, relations, pairs, pairs, hlength]
  refine (List.monotone_filter_right _ fun p hp ↦ ?_).map _
  rw [decide_eq_true_eq] at hp ⊢
  exact h p.1 p.2 hp

theorem relations_congr {s' : Settings} (h : ∀ i j, s.Relates decls i j ↔ s'.Relates decls i j) :
    s.relations decls = s'.relations decls :=
  (relations_sublist rfl fun i j ↦ (h i j).mp).antisymm
    (relations_sublist rfl fun i j ↦ (h i j).mpr)

end Settings

/-! ## Building -/

namespace Inference

variable {settings : Settings} {decls : List Decl}

/-- Positions that are filtered together with what stands there. -/
theorem map_filter_zipIdx {p : Decl × Nat → Bool} {q : Nat → Bool}
    (h : ∀ i decl, decls[i]? = some decl → p (decl, i) = q i) :
    (decls.zipIdx.filter p).map (fun entry ↦ entry.2) = (List.range decls.length).filter q := by
  have hpq : ∀ entry ∈ decls.zipIdx, p entry = (q ∘ fun entry ↦ entry.2) entry := fun entry hentry ↦
    h entry.2 entry.1 (List.mem_zipIdx_iff_getElem?.mp hentry)
  rw [List.filter_congr hpq, ← List.filter_map, List.zipIdx_map_snd, List.range_eq_range']

/-- The targets of a type are the positions of the types that it refers to. -/
theorem targets_eq {source : Decl} {i : Nat} (hi : decls[i]? = some source) :
    targets settings decls source i =
      (List.range decls.length).filter fun j ↦ settings.Relates decls i j := by
  refine map_filter_zipIdx fun j target hj ↦ ?_
  rw [Bool.eq_iff_iff, Bool.and_eq_true, decide_eq_true_eq, decide_eq_true_eq,
    Settings.mentions_iff]
  refine and_congr ne_comm ⟨fun h ↦ ⟨source, hi, target, hj, h⟩, ?_⟩
  rintro ⟨source', hi', target', hj', h⟩
  rw [Option.mem_def, hi] at hi'
  rw [Option.mem_def, hj] at hj'
  cases hi'
  cases hj'
  exact h

/-- A type that encapsulates nothing contributes no relation. -/
theorem flatMap_relations_filter (found : List Encapsulation) :
    (found.filter fun e ↦ !e.targets.isEmpty).flatMap Encapsulation.relations =
      found.flatMap Encapsulation.relations := by
  induction found with
  | nil => rfl
  | cons e rest ih =>
    rw [List.filter_cons, List.flatMap_cons]
    split
    · rw [List.flatMap_cons, ih]
    · next he =>
      have hnil : e.targets = [] := by simpa using he
      rw [ih, Encapsulation.relations, hnil, List.map_nil, List.nil_append]

/-- **The targets, type by type, are all pairs in lexicographic order.** -/
theorem flatMap_relations_encapsulations (settings : Settings) (decls : List Decl) :
    (encapsulations settings decls).flatMap Encapsulation.relations = settings.relations decls := by
  have hrow : ∀ entry ∈ decls.zipIdx,
      Encapsulation.relations ⟨entry.1, entry.2, targets settings decls entry.1 entry.2⟩ =
        ((List.range decls.length).filter fun j ↦ settings.Relates decls entry.2 j).map
          fun j ↦ ⟨entry.2, j, .encapsulates⟩ := fun entry hentry ↦ by
    rw [Encapsulation.relations, targets_eq (List.mem_zipIdx_iff_getElem?.mp hentry)]
  calc (encapsulations settings decls).flatMap Encapsulation.relations
      = decls.zipIdx.flatMap fun entry ↦
          Encapsulation.relations ⟨entry.1, entry.2, targets settings decls entry.1 entry.2⟩ := by
        rw [encapsulations, flatMap_relations_filter, List.flatMap_map]
    _ = decls.zipIdx.flatMap fun entry ↦
          ((List.range decls.length).filter fun j ↦ settings.Relates decls entry.2 j).map
            fun j ↦ ⟨entry.2, j, .encapsulates⟩ := List.flatMap_congr hrow
    _ = (List.range decls.length).flatMap fun i ↦
          ((List.range decls.length).filter fun j ↦ settings.Relates decls i j).map
            fun j ↦ ⟨i, j, .encapsulates⟩ := by
        rw [List.range_eq_range', ← List.zipIdx_map_snd, List.flatMap_map]
    _ = settings.relations decls := Settings.relations_eq_flatMap.symm

/-- **No addition is refused or superfluous**, if the handles are issued and the relations are new
and different from each other. -/
theorem foldl_connect {d : Diagram} {relations : List Relation}
    (hissued : ∀ r ∈ relations, d.issued r.source = true ∧ d.issued r.target = true)
    (hnew : (d.relations ++ relations).Nodup) (log : List Event) :
    relations.foldl connect ⟨d, log⟩ =
      ⟨{ d with relations := d.relations ++ relations }, log⟩ := by
  induction relations generalizing d with
  | nil => rw [List.append_nil, List.foldl_nil]
  | cons r rest ih =>
    obtain ⟨hs, ht⟩ := hissued r List.mem_cons_self
    have hr : r ∉ d.relations := fun hmem ↦
      (List.nodup_append.mp hnew).2.2 r hmem r List.mem_cons_self rfl
    let e : Diagram := { d with relations := d.relations ++ [r] }
    have hadd : d.addRelation r = .ok e :=
      Diagram.addRelation_eq_ok_iff.mpr ⟨hs, ht, (if_neg hr).symm⟩
    have hstep : connect ⟨d, log⟩ r = ⟨e, log⟩ := by
      rw [connect, hadd]
    have hissued' : ∀ x ∈ rest, e.issued x.source = true ∧ e.issued x.target = true :=
      fun x hx ↦ hissued x (List.mem_cons_of_mem _ hx)
    have hnew' : (e.relations ++ rest).Nodup := List.append_cons d.relations r rest ▸ hnew
    rw [List.foldl_cons, hstep, ih hissued' hnew', List.append_cons]

/-- Adding what was found gives all relations, and leaves nothing to report. -/
theorem foldl_connect_encapsulations (settings : Settings) (decls : List Decl) :
    ((encapsulations settings decls).flatMap Encapsulation.relations).foldl connect
        ⟨Diagram.ofDecls decls, []⟩ =
      ⟨⟨decls, settings.relations decls⟩, []⟩ := by
  have hissued : ∀ r ∈ settings.relations decls,
      (Diagram.ofDecls decls).issued r.source = true ∧
        (Diagram.ofDecls decls).issued r.target = true := fun r hr ↦
    have hlt := (Settings.mem_relations_iff.mp hr).1.lt
    ⟨decide_eq_true hlt.1, decide_eq_true hlt.2⟩
  rw [flatMap_relations_encapsulations, foldl_connect hissued Settings.nodup_relations]
  rfl

/-- **The built diagram consists of the kept types and the relations among them.** -/
theorem build_value (inference : Inference) (decls : List Decl) :
    (inference.build decls).value =
      ⟨decls.filter fun decl ↦ inference.Keeps decl,
        inference.settings.relations (decls.filter fun decl ↦ inference.Keeps decl)⟩ := by
  have hkept : decls.filter inference.keeps = decls.filter fun decl ↦ inference.Keeps decl :=
    List.filter_congr fun decl _ ↦ by rw [Bool.eq_iff_iff, keeps_iff, decide_eq_true_eq]
  simp only [build]
  rw [foldl_connect_encapsulations, hkept]

/-! ## The inference is exact -/

/-- **An inference finds exactly the relations that the rules ask for.**  The types of the built
diagram are the kept ones in their order.  Its relations are the pairs of positions at which one
type refers to another, in lexicographic order: so there is none from a type to itself, and never
more than one from one type to another. -/
theorem build_exact (inference : Inference) (decls : List Decl) :
    let kept := decls.filter fun decl ↦ inference.Keeps decl
    let built := (inference.build decls).value
    built.decls = kept ∧
      built.relations =
        ((List.range kept.length ×ˢ List.range kept.length).filter
          fun p ↦ inference.settings.Relates kept p.1 p.2).map
            (fun p ↦ ⟨p.1, p.2, .encapsulates⟩) ∧
      (built.relations.map fun r ↦ (r.source, r.target)).Pairwise (Prod.Lex (· < ·) (· < ·)) ∧
      (∀ r ∈ built.relations, r.source ≠ r.target) ∧
      (built.relations.map fun r ↦ (r.source, r.target)).Nodup ∧
      ∀ i j, ⟨i, j, .encapsulates⟩ ∈ built.relations ↔
        i ≠ j ∧ ∃ source target, kept[i]? = some source ∧ kept[j]? = some target ∧
          inference.settings.Refers source target := by
  intro kept built
  have hbuilt : built = ⟨kept, inference.settings.relations kept⟩ := inference.build_value decls
  rw [hbuilt]
  refine ⟨rfl, rfl, ?_, fun r hr ↦ (Settings.mem_relations_iff.mp hr).1.1, ?_, ?_⟩
  · rw [Settings.map_relations]
    exact Settings.pairwise_pairs
  · rw [Settings.map_relations]
    exact Settings.nodup_pairs
  · intro i j
    rw [Settings.mem_relations_iff]
    refine ⟨?_, ?_⟩
    · rintro ⟨⟨hij, source, hi, target, hj, h⟩, -⟩
      exact ⟨hij, source, target, hi, hj, h⟩
    · rintro ⟨hij, source, target, hi, hj, h⟩
      exact ⟨⟨hij, source, hi, target, hj, h⟩, rfl⟩

theorem build_exact_packages :
    let inference : Inference := { settings := .packageAware }
    let leaves := (Field.named "leaves" "List").withTypeArgument "b.Leaf"
    let decls : List Decl :=
      [(((Decl.named "Tree" "a").withField (.named "root" "Node")).withField leaves).withField
          (.named "next" "Tree"),
        .named "Node" "a", .named "Node" "b", .named "Leaf" "b"]
    let built := (inference.build decls).value
    built.relations = [⟨0, 1, .encapsulates⟩, ⟨0, 3, .encapsulates⟩] ∧
      (0 ≠ 3 ∧ ∃ source target, decls[0]? = some source ∧ decls[3]? = some target ∧
        inference.settings.Refers source target) := by
  intro inference leaves decls built
  have hrelations : built.relations = [⟨0, 1, .encapsulates⟩, ⟨0, 3, .encapsulates⟩] := by
    decide +kernel
  have hmem : ⟨0, 3, .encapsulates⟩ ∈ built.relations := by
    rw [hrelations]
    decide
  obtain ⟨-, -, -, -, -, hexact⟩ := build_exact inference decls
  exact ⟨hrelations, (hexact 0 3).mp hmem⟩

end Inference
end TypeDiagram
