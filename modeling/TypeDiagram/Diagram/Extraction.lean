import TypeDiagram.Diagram.Exploration
import TypeDiagram.Log

/-!
# Extracting a part of a diagram

The part of a diagram around some types is a diagram of its own: the types within a number of hops
of the seeds, in the order in which an exploration finds them, and every relation of the whole
diagram that joins two of them, in the order of the whole diagram.

The part issues handles of its own.  A type that was found as the `k`-th has handle `k`, and the
relations are renumbered accordingly (`Relation.renumber`).

There are two ways to name the seeds: a single handle (`Diagram.neighbourhood`), or all types with
a simple name (`Diagram.focus`).
-/

set_option autoImplicit false

namespace TypeDiagram

/-- A relation between types of a list, by their positions in the list.  There is none if the list
lacks one of the two. -/
def Relation.renumber (order : List Nat) (r : Relation) : Option Relation := do
  let source ← order.idxOf? r.source
  let target ← order.idxOf? r.target
  return ⟨source, target, r.kind⟩

namespace Diagram

/-- The types in a list, in the order of the list, and the relations among them. -/
def restrict (d : Diagram) (order : List Nat) : Diagram where
  decls := order.filterMap d.decl?
  relations := d.relations.filterMap (Relation.renumber order)

/-- The part of a diagram within `depth` hops of the seeds. -/
def extract (d : Diagram) (seeds : List Nat) (depth : Nat) : Logged Diagram :=
  let part := d.restrict (d.within seeds depth)
  ⟨part, [.extracted depth part.decls.length d.decls.length part.relations.length
    d.relations.length]⟩

/-- The part of a diagram within `depth` hops of a type. -/
def neighbourhood (d : Diagram) (seed depth : Nat) : Except Error (Logged Diagram) := do
  d.check seed
  return d.extract [seed] depth

/-- The part of a diagram within `depth` hops of any type with the given simple name. -/
def focus (d : Diagram) (name : String) (depth : Nat) : Except Error (Logged Diagram) :=
  match d.handlesNamed name with
  | [] => .error (.typeNotFound name)
  | seed :: seeds => .ok (d.extract (seed :: seeds) depth)

theorem neighbourhood_eq_ok_iff {d : Diagram} {seed depth : Nat} {part : Logged Diagram} :
    d.neighbourhood seed depth = .ok part ↔
      d.issued seed = true ∧ part = d.extract [seed] depth := by
  rw [neighbourhood]
  by_cases hs : d.issued seed = true
  · rw [check_eq_ok_iff.mpr hs]
    exact ⟨fun h ↦ ⟨hs, (Except.ok.inj h).symm⟩, fun h ↦ congrArg Except.ok h.2.symm⟩
  · rw [check_of_not_issued hs]
    exact iff_of_false (fun h ↦ nomatch h) fun h ↦ hs h.1

theorem focus_eq_ok_iff {d : Diagram} {name : String} {depth : Nat} {part : Logged Diagram} :
    d.focus name depth = .ok part ↔
      d.handlesNamed name ≠ [] ∧ part = d.extract (d.handlesNamed name) depth := by
  rw [focus]
  split
  · next hnil => exact iff_of_false (fun h ↦ nomatch h) fun h ↦ h.1 hnil
  · next seed seeds hcons =>
    rw [hcons]
    exact ⟨fun h ↦ ⟨List.cons_ne_nil _ _, (Except.ok.inj h).symm⟩,
      fun h ↦ congrArg Except.ok h.2.symm⟩

theorem focus_eq_error_iff {d : Diagram} {name : String} {depth : Nat} {e : Error} :
    d.focus name depth = .error e ↔ e = .typeNotFound name ∧ d.handlesNamed name = [] := by
  rw [focus]
  split
  · next hnil => simp [hnil, eq_comm]
  · next seed seeds hcons => simp [hcons]

/-- **Both ways to name the seeds.**  What is true of all extractions around issued seeds without
repetitions is true around an issued handle, and by a name that some type has.  The extractions at
all bounds are given together, as a function of the bound, so that several of them can be
compared. -/
theorem forall_extractions {d : Diagram}
    {P : List Nat → (Nat → Except Error (Logged Diagram)) → Prop}
    (h : ∀ seeds, seeds.Nodup → (∀ s ∈ seeds, d.issued s = true) →
      P seeds fun depth ↦ .ok (d.extract seeds depth)) :
    (∀ seed, d.issued seed = true → P [seed] (d.neighbourhood seed)) ∧
    ∀ name, (∃ x decl, d.decl? x = some decl ∧ decl.name = name) →
      P (d.handlesNamed name) (d.focus name) := by
  refine ⟨fun seed hseed ↦ ?_, fun name hname ↦ ?_⟩
  · have hall : d.neighbourhood seed = fun depth ↦ .ok (d.extract [seed] depth) :=
      funext fun depth ↦ neighbourhood_eq_ok_iff.mpr ⟨hseed, rfl⟩
    rw [hall]
    exact h _ (List.pairwise_singleton _ _) fun s hs ↦ List.mem_singleton.mp hs ▸ hseed
  · have hall : d.focus name = fun depth ↦ .ok (d.extract (d.handlesNamed name) depth) :=
      funext fun depth ↦ focus_eq_ok_iff.mpr ⟨handlesNamed_ne_nil_iff.mpr hname, rfl⟩
    rw [hall]
    exact h _ (d.nodup_handlesNamed name) fun s hs ↦ issued_of_mem_handlesNamed hs

/-- **Both ways to name the seeds, at one bound.**  The extraction succeeds, and the result is an
extraction around issued seeds without repetitions. -/
theorem forall_extraction {d : Diagram} {P : List Nat → Nat → Diagram → Prop}
    (h : ∀ seeds depth, seeds.Nodup → (∀ s ∈ seeds, d.issued s = true) →
      P seeds depth (d.extract seeds depth).value) :
    (∀ seed depth, d.issued seed = true →
      ∃ part, d.neighbourhood seed depth = .ok part ∧ P [seed] depth part.value) ∧
    ∀ name depth, (∃ x decl, d.decl? x = some decl ∧ decl.name = name) →
      ∃ part, d.focus name depth = .ok part ∧ P (d.handlesNamed name) depth part.value := by
  have hall := forall_extractions (d := d)
    (P := fun seeds view ↦ ∀ depth, ∃ part, view depth = .ok part ∧ P seeds depth part.value)
    fun seeds hn hs depth ↦ ⟨_, rfl, h seeds depth hn hs⟩
  exact ⟨fun seed depth hseed ↦ hall.1 seed hseed depth,
    fun name depth hname ↦ hall.2 name hname depth⟩

end Diagram
end TypeDiagram
