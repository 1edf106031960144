import TypeDiagram.Proofs.History
import TypeDiagram.Proofs.Walks

/-!
# What a neighbourhood shows

A neighbourhood is asked for by a type or by a name, and a bound on the distance.  The answer is
meant to show every type within that distance, whichever way the relations lead there, and no other
type.  `Diagram.Reachable.shows_near` says that it does.

The search might fail this in two ways.  It might go too far, or it might meet a type first on a
detour, give it too large a distance, and stop too early behind it.  Neither happens, because the
types are found layer by layer (`Diagram.within_eq_ball`) and a layer holds what is one step further
than the one before (`Diagram.mem_ball_iff`).
-/

set_option autoImplicit false

namespace TypeDiagram
namespace Diagram

/-- The types of the part are those types of the diagram that satisfy the condition, each of them
once. -/
def Shows (part d : Diagram) (P : Nat → Prop) : Prop :=
  ∃ order : List Nat, order.Nodup ∧ (∀ x, x ∈ order ↔ P x) ∧
    part.decls.map some = order.map d.decl?

variable {d : Diagram}

/-- **An extraction shows what is near its seeds.** -/
theorem WellFormed.shows_extract (hd : d.WellFormed) {seeds : List Nat}
    (hs : ∀ s ∈ seeds, d.issued s = true) (depth : Nat) :
    (d.extract seeds depth).value.Shows d fun x ↦ ∃ s ∈ seeds, d.Near depth s x := by
  have h := hd.selection_within hs depth
  exact ⟨d.within seeds depth, h.nodup, fun x ↦ mem_within_iff, h.decls_restrict⟩

/-- **Neighbourhoods show exactly the types within the bound.**  Around an issued handle the
extraction succeeds, and it shows the types that a walk of at most `depth` relations joins to it.
By a name that some type has it succeeds as well, and shows the types that are so joined to one of
the types with that name. -/
theorem Reachable.shows_near (hd : d.Reachable) :
    (∀ seed depth, d.issued seed = true →
      ∃ part, d.neighbourhood seed depth = .ok part ∧
        part.value.Shows d fun x ↦ d.Near depth seed x) ∧
    ∀ name depth, (∃ x decl, d.decl? x = some decl ∧ decl.name = name) →
      ∃ part, d.focus name depth = .ok part ∧
        part.value.Shows d fun x ↦
          ∃ s decl, d.decl? s = some decl ∧ decl.name = name ∧ d.Near depth s x := by
  have h := forall_extraction (d := d)
    (P := fun seeds depth part ↦ part.Shows d fun x ↦ ∃ s ∈ seeds, d.Near depth s x)
    fun seeds depth _ hs ↦ hd.wellFormed.shows_extract hs depth
  simpa only [List.mem_singleton, exists_eq_left, mem_handlesNamed, ← exists_and_right,
    and_assoc] using h

theorem shows_near_tangle :
    let d := History.tangle.diagram
    (d.issued 0 = true ∧ ∃ part, d.neighbourhood 0 2 = .ok part ∧
      part.value.Shows d fun x ↦ d.Near 2 0 x) ∧
    (∃ x decl, d.decl? x = some decl ∧ decl.name = "A") ∧
    ∃ part, d.focus "A" 1 = .ok part ∧
      part.value.Shows d fun x ↦
        ∃ s decl, d.decl? s = some decl ∧ decl.name = "A" ∧ d.Near 1 s x := by
  intro d
  have hseed : d.issued 0 = true := by decide
  have hname : ∃ x decl, d.decl? x = some decl ∧ decl.name = "A" := ⟨3, .named "A" "", rfl, rfl⟩
  have h : _ ∧ _ := Reachable.shows_near ⟨History.tangle, rfl⟩
  exact ⟨⟨hseed, h.1 0 2 hseed⟩, hname, h.2 "A" 1 hname⟩

end Diagram
end TypeDiagram
