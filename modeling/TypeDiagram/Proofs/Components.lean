import TypeDiagram.Proofs.Induced
import Mathlib.Logic.Relation

/-!
# Connected components

An extraction with a large enough bound shows everything that is connected with its seeds.  How
large is enough?  A diagram with `n` types is exhausted at the bound `n - 1`, whatever its relations
are: each layer of a search that is not empty holds a type that was in no layer before, so there are
at most `n` such layers, with the numbers `0` to `n - 1` (`Diagram.lt_length_ball`).  From there on
all bounds give the same extraction, down to the order of its types.

## What is here

* `Diagram.Connected` — the equivalence that the relations generate, without regard to their
  directions.  Types are connected exactly when some walk joins them (`Diagram.Walk.connected`,
  `Diagram.Connected.exists_walk`).
* `Diagram.WellFormed.within_saturates` — **the bound `n - 1` is as good as any larger one**.
* `Diagram.WellFormed.mem_within_iff_connected` — what is found at such a bound is what is connected
  with a seed.  So it is an equivalence that one type is shown around another.  At a smaller bound
  it need not be one, because being near is not transitive.
* `Diagram.Uncut` — a part from which no relation leads out.  Extractions have relations cut off at
  their rim, but a component has no rim.

## How the bound is found

The proof that the bound suffices counts, and does not look at walks.  Behind an empty layer there
are only empty ones (`Diagram.sphere_succ_eq_nil`).  A ball whose last layer is not empty has more
members than the number of that layer says.  And a ball consists of issued handles without
repetitions, so it has `n` members at most.  To cut a walk short where it comes back to a type would
give the same bound for what is found, but would not say that the order of discovery is the same.

The diagram without types is no exception.  It has no seeds, and its bound is zero.
-/

set_option autoImplicit false

namespace TypeDiagram
namespace Diagram

/-! ## Connected types -/

/-- The least equivalence in which the two ends of each relation are equivalent. -/
def Connected (d : Diagram) : Nat → Nat → Prop :=
  Relation.EqvGen fun x y ↦ ∃ r ∈ d.relations, r.source = x ∧ r.target = y

variable {d : Diagram} {seeds : List Nat} {a b : Nat}

theorem equivalence_connected (d : Diagram) : Equivalence d.Connected :=
  Relation.EqvGen.is_equivalence _

theorem connected_of_mem_relations {r : Relation} (hr : r ∈ d.relations) :
    d.Connected r.source r.target :=
  .rel _ _ ⟨r, hr, rfl, rfl⟩

theorem Walk.connected {n : Nat} (h : d.Walk a n b) : d.Connected a b := by
  induction h with
  | stay => exact d.equivalence_connected.refl a
  | forward _ hr ih => exact d.equivalence_connected.trans ih (connected_of_mem_relations hr)
  | backward _ hr ih =>
    have hback := d.equivalence_connected.symm (connected_of_mem_relations hr)
    exact d.equivalence_connected.trans ih hback

theorem Connected.exists_walk (h : d.Connected a b) : ∃ n, d.Walk a n b := by
  induction h with
  | rel x y h =>
    obtain ⟨r, hr, rfl, rfl⟩ := h
    exact ⟨1, Walk.stay.forward hr⟩
  | refl x => exact ⟨0, .stay⟩
  | symm x y _ ih =>
    obtain ⟨n, hn⟩ := ih
    exact ⟨n, hn.reverse⟩
  | trans x y z _ _ ihxy ihyz =>
    obtain ⟨m, hm⟩ := ihxy
    obtain ⟨n, hn⟩ := ihyz
    exact ⟨m + n, hm.append hn⟩

/-! ## How many layers there are -/

theorem sphere_succ_eq_nil {k : Nat} (h : d.sphere seeds k = []) :
    d.sphere seeds (k + 1) = [] := by
  rw [sphere_succ, h]
  rfl

/-- A layer that is not empty comes with a type for each layer before it. -/
theorem lt_length_ball {k : Nat} (h : d.sphere seeds k ≠ []) : k < (d.ball seeds k).length := by
  induction k with
  | zero => exact List.length_pos_iff.mpr h
  | succ k ih =>
    have hlast : 0 < (d.sphere seeds (k + 1)).length := List.length_pos_iff.mpr h
    have hbefore := ih fun hnil ↦ h (sphere_succ_eq_nil hnil)
    rw [ball_succ, List.length_append]
    omega

theorem WellFormed.length_ball_le (hd : d.WellFormed) (hs : ∀ s ∈ seeds, d.issued s = true)
    (k : Nat) : (d.ball seeds k).length ≤ d.decls.length := by
  have hsub : d.ball seeds k ⊆ d.handles := fun x hx ↦
    mem_handles_iff.mpr (hd.issued_of_mem_ball hs hx)
  simpa [handles] using (nodup_ball k).length_le_of_subset hsub

/-- No type is as far away as there are types. -/
theorem WellFormed.sphere_length_eq_nil (hd : d.WellFormed)
    (hs : ∀ s ∈ seeds, d.issued s = true) : d.sphere seeds d.decls.length = [] := by
  by_contra h
  have hmore := lt_length_ball h
  have hless := hd.length_ball_le hs d.decls.length
  omega

/-- **Once the bound is one less than the number of types, a larger one makes no difference.** -/
theorem WellFormed.within_saturates (hd : d.WellFormed) (hs : ∀ s ∈ seeds, d.issued s = true)
    {k : Nat} (hk : d.decls.length - 1 ≤ k) :
    d.within seeds k = d.within seeds (d.decls.length - 1) := by
  have hempty := hd.sphere_length_eq_nil hs
  have hnext : d.sphere seeds (d.decls.length - 1 + 1) = [] := by
    by_cases hlen : d.decls.length = 0
    · rw [hlen] at hempty ⊢
      exact sphere_succ_eq_nil hempty
    · rwa [Nat.sub_add_cancel (Nat.pos_of_ne_zero hlen)]
  rw [within_eq_ball, within_eq_ball]
  exact ball_eq_of_sphere_eq_nil hnext hk

/-- **At such a bound, a search finds what is connected with a seed.** -/
theorem WellFormed.mem_within_iff_connected (hd : d.WellFormed)
    (hs : ∀ s ∈ seeds, d.issued s = true) {k : Nat} (hk : d.decls.length - 1 ≤ k) {x : Nat} :
    x ∈ d.within seeds k ↔ ∃ s ∈ seeds, d.Connected s x := by
  refine ⟨fun hx ↦ ?_, ?_⟩
  · obtain ⟨s, hs, n, -, hn⟩ := mem_within_iff.mp hx
    exact ⟨s, hs, hn.connected⟩
  · rintro ⟨s, hmem, hsx⟩
    obtain ⟨n, hn⟩ := hsx.exists_walk
    -- a walk that is longer than the bound leads to nothing new
    have hfar : x ∈ d.within seeds (max n k) :=
      mem_within_iff.mpr ⟨s, hmem, n, Nat.le_max_left n k, hn⟩
    rw [hd.within_saturates hs (Nat.le_trans hk (Nat.le_max_right n k))] at hfar
    rwa [hd.within_saturates hs hk]

/-! ## Parts from which nothing leads out -/

/-- The part consists of the types with the listed handles, in this order, and of every relation
that touches one of them. -/
structure Uncut (part d : Diagram) (order : List Nat) : Prop where
  /-- No handle is listed twice. -/
  nodup : order.Nodup
  /-- The types are those with the listed handles, one by one. -/
  decls : part.decls.map some = order.map d.decl?
  /-- A relation with one end in the part is in the part. -/
  relations : part.relations =
    (d.relations.filter fun r ↦ r.source ∈ order ∨ r.target ∈ order).map
      (Relation.along order.idxOf)

theorem Selection.uncut {order : List Nat} (h : d.Selection order)
    (hclosed : ∀ r ∈ d.relations, r.source ∈ order ↔ r.target ∈ order) :
    (d.restrict order).Uncut d order := by
  refine ⟨h.nodup, h.decls_restrict, ?_⟩
  rw [relations_restrict]
  refine congrArg _ (List.filter_congr fun r hr ↦ ?_)
  simp [hclosed r hr]

/-- **No relation leads out of a saturated extraction.** -/
theorem WellFormed.extract_uncut (hd : d.WellFormed) (hs : ∀ s ∈ seeds, d.issued s = true)
    {k : Nat} (hk : d.decls.length - 1 ≤ k) :
    (d.extract seeds k).value.Uncut d (d.within seeds k) := by
  refine (hd.selection_within hs k).uncut fun r hr ↦ ?_
  rw [hd.mem_within_iff_connected hs hk, hd.mem_within_iff_connected hs hk]
  have hends := connected_of_mem_relations hr
  refine ⟨?_, ?_⟩
  · rintro ⟨s, hs, hsource⟩
    exact ⟨s, hs, d.equivalence_connected.trans hsource hends⟩
  · rintro ⟨s, hs, htarget⟩
    exact ⟨s, hs, d.equivalence_connected.trans htarget (d.equivalence_connected.symm hends)⟩

/-! ## Extractions saturate at the components -/

/-- All that happens to an extraction when its bound is large enough: it is the one at the bound
`n - 1`, no relation leads out of it, and its types are those connected with a seed. -/
theorem WellFormed.extract_saturates (hd : d.WellFormed) (hs : ∀ s ∈ seeds, d.issued s = true)
    {k : Nat} (hk : d.decls.length - 1 ≤ k) :
    (d.extract seeds k).value = (d.extract seeds (d.decls.length - 1)).value ∧
      (d.extract seeds k).value.Uncut d (d.within seeds k) ∧
      ∀ x, x ∈ d.within seeds k ↔ ∃ s ∈ seeds, d.Connected s x :=
  ⟨congrArg d.restrict (hd.within_saturates hs hk), hd.extract_uncut hs hk,
    fun _ ↦ hd.mem_within_iff_connected hs hk⟩

/-- **Extractions saturate at the connected component.**  Let the bound be at least one less than
the number of types.  Around an issued handle the extraction succeeds, and it is equal to the one at
the bound that is exactly one less.  Its types are those that are connected with the given one, each
of them once, and its relations are all relations that touch one of these types, in their order.
The same is true of a name that some type has, with the types that are connected with one of that
name.  So it is an equivalence between issued handles that one is shown around the other. -/
theorem Reachable.extraction_saturates (hd : d.Reachable) {depth : Nat}
    (hdepth : d.decls.length - 1 ≤ depth) :
    (∀ seed, d.issued seed = true →
      ∃ part full, d.neighbourhood seed depth = .ok part ∧
        d.neighbourhood seed (d.decls.length - 1) = .ok full ∧ part.value = full.value ∧
        part.value.Uncut d (d.within [seed] depth) ∧
        ∀ x, x ∈ d.within [seed] depth ↔ d.Connected seed x) ∧
    (∀ name, (∃ x decl, d.decl? x = some decl ∧ decl.name = name) →
      ∃ part full, d.focus name depth = .ok part ∧
        d.focus name (d.decls.length - 1) = .ok full ∧ part.value = full.value ∧
        part.value.Uncut d (d.within (d.handlesNamed name) depth) ∧
        ∀ x, x ∈ d.within (d.handlesNamed name) depth ↔
          ∃ s ∈ d.handlesNamed name, d.Connected s x) ∧
    Equivalence fun u v : Fin d.decls.length ↦ (v : Nat) ∈ d.within [(u : Nat)] depth := by
  have hwf := hd.wellFormed
  obtain ⟨hseed, hname⟩ := forall_extractions (d := d)
    (P := fun seeds view ↦ ∃ part full, view depth = .ok part ∧
      view (d.decls.length - 1) = .ok full ∧ part.value = full.value ∧
      part.value.Uncut d (d.within seeds depth) ∧
      ∀ x, x ∈ d.within seeds depth ↔ ∃ s ∈ seeds, d.Connected s x)
    fun seeds _ hs ↦ ⟨_, _, rfl, rfl, hwf.extract_saturates hs hdepth⟩
  simp only [List.mem_singleton, exists_eq_left] at hseed
  refine ⟨hseed, hname, ?_⟩
  have hshown : (fun u v : Fin d.decls.length ↦ (v : Nat) ∈ d.within [(u : Nat)] depth) =
      Function.onFun d.Connected Fin.val := by
    funext u v
    obtain ⟨-, -, -, -, -, -, hmem⟩ := hseed u (decide_eq_true u.isLt)
    exact propext (hmem v)
  rw [hshown]
  exact d.equivalence_connected.comap Fin.val

theorem extraction_saturates_islands :
    let h : History :=
      ⟨.ofDecls [.named "A" "", .named "B" "", .named "C" "", .named "A" "", .named "D" ""],
        [.addRelation ⟨1, 0, .encapsulates⟩, .addRelation ⟨3, 2, .encapsulates⟩,
          .addRelation ⟨2, 2, .encapsulates⟩]⟩
    let d := h.diagram
    d.Reachable ∧ d.decls.length - 1 ≤ 7 ∧
    (d.issued 1 = true ∧
      ∃ part full, d.neighbourhood 1 7 = .ok part ∧
        d.neighbourhood 1 (d.decls.length - 1) = .ok full ∧ part.value = full.value ∧
        part.value.Uncut d (d.within [1] 7) ∧ ∀ x, x ∈ d.within [1] 7 ↔ d.Connected 1 x) ∧
    d.within [1] 7 = [1, 0] ∧
    ((∃ x decl, d.decl? x = some decl ∧ decl.name = "A") ∧
      ∃ part full, d.focus "A" 7 = .ok part ∧
        d.focus "A" (d.decls.length - 1) = .ok full ∧ part.value = full.value ∧
        part.value.Uncut d (d.within (d.handlesNamed "A") 7) ∧
        ∀ x, x ∈ d.within (d.handlesNamed "A") 7 ↔ ∃ s ∈ d.handlesNamed "A", d.Connected s x) ∧
    d.within (d.handlesNamed "A") 7 = [0, 3, 1, 2] := by
  intro h d
  have hd : d.Reachable := ⟨h, rfl⟩
  have hdepth : d.decls.length - 1 ≤ 7 := by decide +kernel
  have hseed : d.issued 1 = true := by decide +kernel
  have hname : ∃ x decl, d.decl? x = some decl ∧ decl.name = "A" :=
    ⟨3, .named "A" "", by decide +kernel, rfl⟩
  obtain ⟨haround, hnamed, -⟩ := hd.extraction_saturates hdepth
  exact ⟨hd, hdepth, ⟨hseed, haround 1 hseed⟩, by decide +kernel, ⟨hname, hnamed "A" hname⟩,
    by decide +kernel⟩

end Diagram
end TypeDiagram
