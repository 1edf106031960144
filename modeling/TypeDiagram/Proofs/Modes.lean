import TypeDiagram.Proofs.Inference

/-!
# Where the two match modes agree

By simple name, a name in a field stands for every type that is called so.  Package-aware, it
depends on the packages.  Each of the two modes can find relations that the other one misses: a name
with a dot in it stands for a type by its qualified name, and there may be no type whose simple name
it is; a name without a dot stands for fewer types when some of them cannot be seen.

Two rules say all about the difference, one name at a time:

* `MatchMode.denotes_packageAware_of_unknown` — if the package of the target is not known, the modes
  agree, whatever the name looks like.  The qualified name is then the simple name.
* `MatchMode.denotes_packageAware_of_plain` — if the name has no dot in it, being package-aware is
  to ask, in addition, that the target can be seen.

From these, `Inference.modes_agree` compares the diagrams that are built in the two modes.

## Where they differ

Both conditions of the last statement are needed.  Without the one on dots there may be relations
that only the package-aware mode finds.  Without the one on packages there may be relations that
only the other mode finds: two types of one name, in different packages, are both meant by this name
when it is taken as a simple name.

A type without a package is no obstacle.  It can be seen from everywhere and sees everything, just
as a simple name does not ask where a type is.  So a diagram in which no package is known is the
same in both modes, even if names with dots in them are used.
-/

set_option autoImplicit false

namespace TypeDiagram

/-! ## One name -/

namespace MatchMode

variable {source target : Decl} {name : String}

theorem denotes_simpleName_iff : simpleName.Denotes source name target ↔ name = target.name := by
  refine ⟨fun h ↦ ?_, .simple⟩
  cases h with
  | simple h => exact h

/-- **A type without a package goes by its simple name in both modes.** -/
theorem denotes_packageAware_of_unknown (h : target.package = "") :
    packageAware.Denotes source name target ↔ simpleName.Denotes source name target := by
  rw [denotes_simpleName_iff]
  refine ⟨fun hname ↦ ?_, fun hname ↦ ?_⟩
  · cases hname with
    | qualified _ hname => exact hname.trans (Decl.qualifiedName_of_unknown h)
    | visible _ hname _ => exact hname
  · by_cases hdot : '.' ∈ name.toList
    · exact .qualified hdot (hname.trans (Decl.qualifiedName_of_unknown h).symm)
    · exact .visible hdot hname (.targetUnknown h)

/-- **A name without a dot has to be the simple name of a type that can be seen.** -/
theorem denotes_packageAware_of_plain (hdot : '.' ∉ name.toList) :
    packageAware.Denotes source name target ↔
      simpleName.Denotes source name target ∧ source.Visible target := by
  rw [denotes_simpleName_iff]
  refine ⟨fun hname ↦ ?_, fun ⟨hname, hvisible⟩ ↦ .visible hdot hname hvisible⟩
  cases hname with
  | qualified hno => exact absurd hno hdot
  | visible _ hname hvisible => exact ⟨hname, hvisible⟩

end MatchMode

/-! ## The relations among a list of types -/

namespace Settings

/-- The same settings in another mode. -/
def withMode (s : Settings) (mode : MatchMode) : Settings := { s with matchMode := mode }

/-- None of the names that count in the fields of the types has a dot in it. -/
def Plain (s : Settings) (decls : List Decl) : Prop :=
  ∀ decl ∈ decls, ∀ field ∈ decl.fields, ∀ name, s.Considers field name → '.' ∉ name.toList

variable {s : Settings} {decls : List Decl}

/-- Which names count does not depend on the mode. -/
theorem considers_withMode {mode : MatchMode} {field : Field} {name : String} :
    (s.withMode mode).Considers field name ↔ s.Considers field name := by
  rw [← mem_considered_iff, ← mem_considered_iff]
  rfl

theorem refers_withMode_iff {mode : MatchMode} {source target : Decl} :
    (s.withMode mode).Refers source target ↔
      ∃ field ∈ source.fields, ∃ name, s.Considers field name ∧
        mode.Denotes source name target := by
  simp only [Refers, considers_withMode]
  rfl

theorem relations_eq_of_unknown (h : ∀ decl ∈ decls, decl.package = "") :
    (s.withMode .packageAware).relations decls = (s.withMode .simpleName).relations decls := by
  have hrefers : ∀ {source target : Decl} {j : Nat}, decls[j]? = some target →
      ((s.withMode .packageAware).Refers source target ↔
        (s.withMode .simpleName).Refers source target) := fun hj ↦ by
    simp only [refers_withMode_iff,
      MatchMode.denotes_packageAware_of_unknown (h _ (List.mem_of_getElem? hj))]
  exact relations_congr fun i j ↦
    ⟨fun hij ↦ hij.imp fun _ _ _ hj ↦ (hrefers hj).mp,
      fun hij ↦ hij.imp fun _ _ _ hj ↦ (hrefers hj).mpr⟩

namespace Plain

/-- A plain reference is package-aware if, in addition, the target can be seen. -/
theorem refers_packageAware_iff (h : s.Plain decls) {source target : Decl}
    (hsource : source ∈ decls) :
    (s.withMode .packageAware).Refers source target ↔
      (s.withMode .simpleName).Refers source target ∧ source.Visible target := by
  rw [refers_withMode_iff, refers_withMode_iff]
  refine ⟨?_, ?_⟩
  · rintro ⟨field, hfield, name, hname, hdenotes⟩
    rw [MatchMode.denotes_packageAware_of_plain (h source hsource field hfield name hname)]
      at hdenotes
    exact ⟨⟨field, hfield, name, hname, hdenotes.1⟩, hdenotes.2⟩
  · rintro ⟨⟨field, hfield, name, hname, hdenotes⟩, hvisible⟩
    have hdot := h source hsource field hfield name hname
    exact ⟨field, hfield, name, hname,
      (MatchMode.denotes_packageAware_of_plain hdot).mpr ⟨hdenotes, hvisible⟩⟩

theorem relates_simpleName (h : s.Plain decls) {i j : Nat}
    (hij : (s.withMode .packageAware).Relates decls i j) :
    (s.withMode .simpleName).Relates decls i j :=
  hij.imp fun _ _ hi _ hrefers ↦
    ((h.refers_packageAware_iff (List.mem_of_getElem? hi)).mp hrefers).1

theorem relations_sublist (h : s.Plain decls) :
    ((s.withMode .packageAware).relations decls).Sublist
      ((s.withMode .simpleName).relations decls) :=
  Settings.relations_sublist rfl fun _ _ ↦ h.relates_simpleName

/-- If no relation by simple names leads to a type that cannot be seen, no relation is lost. -/
theorem relations_eq (h : s.Plain decls)
    (hvisible : ∀ i j, (s.withMode .simpleName).Relates decls i j →
      ∀ source target, decls[i]? = some source → decls[j]? = some target →
        source.Visible target) :
    (s.withMode .packageAware).relations decls = (s.withMode .simpleName).relations decls := by
  refine relations_congr fun i j ↦ ⟨h.relates_simpleName, fun hij ↦ ?_⟩
  refine hij.imp fun source target hi hj hrefers ↦ ?_
  exact (h.refers_packageAware_iff (List.mem_of_getElem? hi)).mpr
    ⟨hrefers, hvisible i j hij source target hi hj⟩

end Plain
end Settings

/-! ## The diagrams -/

namespace Inference

/-- The same inference in another mode. -/
def withMode (inference : Inference) (mode : MatchMode) : Inference :=
  { inference with settings := inference.settings.withMode mode }

/-- Which types are kept does not depend on the mode. -/
theorem build_withMode (inference : Inference) (mode : MatchMode) (decls : List Decl) :
    let kept := decls.filter fun decl ↦ inference.Keeps decl
    ((inference.withMode mode).build decls).value =
      ⟨kept, (inference.settings.withMode mode).relations kept⟩ :=
  (inference.withMode mode).build_value decls

/-- **The two match modes agree where packages do not matter.**  Let two inferences differ in their
mode alone; they keep the same types.  If none of these types has a package, the inferences build
the same diagram, whatever names the types use and import.  If none of the names that count has a
dot in it, then the relations that are found package-aware are some of those that are found by
simple name, in the same order.  And if, in addition, each relation that is found by simple name
joins types of one package, or has an end without a package, the diagrams are again the same. -/
theorem modes_agree (inference : Inference) (decls : List Decl) :
    let kept := decls.filter fun decl ↦ inference.Keeps decl
    let aware := ((inference.withMode .packageAware).build decls).value
    let simple := ((inference.withMode .simpleName).build decls).value
    (aware.decls = kept ∧ simple.decls = kept) ∧
    ((∀ decl ∈ kept, decl.package = "") → aware = simple) ∧
    (inference.settings.Plain kept → aware.relations.Sublist simple.relations) ∧
    (inference.settings.Plain kept →
      (∀ r ∈ simple.relations,
        ∀ source ∈ simple.decl? r.source, ∀ target ∈ simple.decl? r.target,
          source.package = target.package ∨ source.package = "" ∨ target.package = "") →
      aware = simple) := by
  intro kept aware simple
  have haware : aware = ⟨kept, _⟩ := inference.build_withMode .packageAware decls
  have hsimple : simple = ⟨kept, _⟩ := inference.build_withMode .simpleName decls
  rw [haware, hsimple, Diagram.mk.injEq]
  refine ⟨⟨rfl, rfl⟩, fun h ↦ ⟨rfl, Settings.relations_eq_of_unknown h⟩,
    fun h ↦ h.relations_sublist, fun h hpackages ↦ ⟨rfl, h.relations_eq ?_⟩⟩
  intro i j hij source target hi hj
  have hr : ⟨i, j, .encapsulates⟩ ∈ (inference.settings.withMode .simpleName).relations kept :=
    Settings.mem_relations_iff.mpr ⟨hij, rfl⟩
  rcases hpackages _ hr source hi target hj with hsame | hsource | htarget
  · exact .samePackage hsame
  · exact .sourceUnknown hsource
  · exact .targetUnknown htarget

theorem modes_agree_packages :
    let inference : Inference := {}
    let aware := fun decls ↦ ((inference.withMode .packageAware).build decls).value
    let simple := fun decls ↦ ((inference.withMode .simpleName).build decls).value
    let kept := fun decls : List Decl ↦ decls.filter fun decl ↦ inference.Keeps decl
    let node := Field.named "root" "Node"
    let unpackaged : List Decl :=
      [(Decl.named "Tree" "").withField (.named "leaf" "b.Leaf"), .named "b.Leaf" ""]
    let twoNodes : List Decl :=
      [(Decl.named "Tree" "a").withField node, .named "Node" "a", .named "Node" "b"]
    let oneNode : List Decl :=
      [((Decl.named "Tree" "a").withField node).withField (.named "leaf" "Leaf"),
        .named "Node" "a", .named "Leaf" ""]
    ((∀ decl ∈ kept unpackaged, decl.package = "") ∧
      (simple unpackaged).relations = [⟨0, 1, .encapsulates⟩] ∧
      aware unpackaged = simple unpackaged) ∧
    (inference.settings.Plain (kept twoNodes) ∧
      (aware twoNodes).relations.Sublist (simple twoNodes).relations ∧
      aware twoNodes ≠ simple twoNodes) ∧
    (inference.settings.Plain (kept oneNode) ∧
      (∀ r ∈ (simple oneNode).relations,
        ∀ source ∈ (simple oneNode).decl? r.source, ∀ target ∈ (simple oneNode).decl? r.target,
          source.package = target.package ∨ source.package = "" ∨ target.package = "") ∧
      (simple oneNode).relations = [⟨0, 1, .encapsulates⟩, ⟨0, 2, .encapsulates⟩] ∧
      aware oneNode = simple oneNode) := by
  intro inference aware simple kept node unpackaged twoNodes oneNode
  have hunknown : ∀ decl ∈ kept unpackaged, decl.package = "" := by decide +kernel
  have hplain : ∀ decls, (∀ decl ∈ kept decls, ∀ field ∈ decl.fields,
      ∀ name ∈ inference.settings.considered field, '.' ∉ name.toList) →
      inference.settings.Plain (kept decls) := fun decls h decl hdecl field hfield name hname ↦
    h decl hdecl field hfield name (Settings.mem_considered_iff.mpr hname)
  have htwo : inference.settings.Plain (kept twoNodes) := hplain twoNodes (by decide +kernel)
  have hone : inference.settings.Plain (kept oneNode) := hplain oneNode (by decide +kernel)
  have hpackages : ∀ r ∈ (simple oneNode).relations,
      ∀ source ∈ (simple oneNode).decl? r.source, ∀ target ∈ (simple oneNode).decl? r.target,
        source.package = target.package ∨ source.package = "" ∨ target.package = "" := by
    decide +kernel
  obtain ⟨-, hagree, -⟩ := modes_agree inference unpackaged
  obtain ⟨-, -, hsublist, -⟩ := modes_agree inference twoNodes
  obtain ⟨-, -, -, hequal⟩ := modes_agree inference oneNode
  exact ⟨⟨hunknown, by decide +kernel, hagree hunknown⟩,
    ⟨htwo, hsublist htwo, by decide +kernel⟩,
    hone, hpackages, by decide +kernel, hequal hone hpackages⟩

end Inference
end TypeDiagram
