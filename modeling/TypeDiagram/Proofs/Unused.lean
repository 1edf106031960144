import TypeDiagram.Proofs.Merging
import TypeDiagram.Proofs.Queries

/-!
# Unused types in an extraction

A type is unused when no relation touches it.  An extraction leaves out the relations that lead
beyond its bound, so a type might look unused in it only because its relations were cut off.  This
file says that this does not happen, once the bound is at least one.

The types of an extraction are of two kinds.  A type that is nearer than the bound keeps all its
relations.  A type at the bound is no seed, and was found as a neighbour of a type that is nearer; a
relation joins the two, and both of them are shown.  At the bound zero, where the seeds are at the
bound themselves, this does not hold: nothing but seeds is shown then.

Around a name, several seeds may be unused, and each of them is shown as such.  Around a single
handle there is one at most, and if there is one it is all that is shown.

## What is here

* `Diagram.exists_mem_adjacent_ball` — **a type with neighbours keeps one of them**.
* `Diagram.mem_seeds_of_adjacent_eq_nil` — a type without neighbours is only found as a seed.
* `Diagram.WellFormed.unused_extract` — so the unused types of an extraction are the unused seeds,
  in their order.
-/

set_option autoImplicit false

namespace TypeDiagram
namespace Diagram

variable {d : Diagram} {seeds order : List Nat} {depth x : Nat}

/-! ## Neighbours within the bound -/

/-- **A type with neighbours keeps one of them** in every ball that reaches beyond the seeds. -/
theorem exists_mem_adjacent_ball (hdepth : 1 ≤ depth) (hx : x ∈ d.ball seeds depth)
    (h : d.adjacent x ≠ []) : ∃ y ∈ d.adjacent x, y ∈ d.ball seeds depth := by
  obtain ⟨k, rfl⟩ := Nat.exists_eq_add_of_le' hdepth
  rcases mem_ball_succ.mp hx with hnear | ⟨y, hy, hxy⟩
  · -- nearer than the bound: all neighbours are in the ball
    obtain ⟨y, hy⟩ := List.exists_mem_of_ne_nil _ h
    exact ⟨y, hy, mem_ball_succ.mpr (.inr ⟨x, hnear, hy⟩)⟩
  · -- at the bound: the type from which it was found is in the ball
    exact ⟨y, mem_adjacent_comm.mp hxy, mem_ball_succ.mpr (.inl hy)⟩

theorem mem_seeds_of_adjacent_eq_nil (hx : x ∈ d.ball seeds depth) (h : d.adjacent x = []) :
    x ∈ seeds := by
  induction depth with
  | zero => exact (mem_firsts.mp hx).1
  | succ k ih =>
    rcases mem_ball_succ.mp hx with hx | ⟨y, -, hxy⟩
    · exact ih hx
    · have hy := mem_adjacent_comm.mp hxy
      rw [h] at hy
      exact absurd hy List.not_mem_nil

/-! ## Types without neighbours in a part -/

/-- A type has no neighbours in a part if none of its neighbours is selected. -/
theorem adjacent_restrict_eq_nil_iff {i : Nat} (hx : order.idxOf? x = some i) :
    (d.restrict order).adjacent i = [] ↔ ∀ y ∈ d.adjacent x, y ∉ order := by
  rw [adjacent_restrict hx, List.filterMap_eq_nil_iff]
  simp only [List.idxOf?_eq_none_iff]

/-- A type has no neighbours in a ball exactly when it has none at all. -/
theorem adjacent_restrict_ball_eq_nil_iff (hdepth : 1 ≤ depth) {i : Nat}
    (hx : (d.ball seeds depth).idxOf? x = some i) :
    (d.restrict (d.ball seeds depth)).adjacent i = [] ↔ d.adjacent x = [] := by
  rw [adjacent_restrict_eq_nil_iff hx]
  refine ⟨fun h ↦ ?_, fun h ↦ by simp [h]⟩
  by_contra hne
  obtain ⟨y, hy, hball⟩ := exists_mem_adjacent_ball hdepth (mem_of_idxOf?_eq_some hx) hne
  exact h y hy hball

/-- **The unused types of an extraction are the seeds without neighbours**, in their order. -/
theorem WellFormed.unused_extract (hd : d.WellFormed) (hn : seeds.Nodup)
    (hs : ∀ s ∈ seeds, d.issued s = true) (hdepth : 1 ≤ depth) :
    (d.extract seeds depth).value.unused.map (fun i ↦ (d.within seeds depth).getD i 0) =
      seeds.filter fun x ↦ d.adjacent x = [] := by
  have hselection := hd.selection_within hs depth
  have hhandles := hselection.map_getD_handles
  let part := d.restrict (d.within seeds depth)
  let f := fun i ↦ (d.within seeds depth).getD i 0
  have hloose : ∀ i ∈ part.handles,
      decide (part.adjacent i = []) = decide (d.adjacent (f i) = []) := by
    intro i hi
    have hplace := hselection.idxOf?_getD (mem_handles_iff.mp hi)
    simp only [part, f, within_eq_ball] at hplace ⊢
    rw [decide_eq_decide, adjacent_restrict_ball_eq_nil_iff hdepth hplace]
  calc part.unused.map f
      = (part.handles.filter fun i ↦ d.adjacent (f i) = []).map f := by
        rw [unused_eq_filter, List.filter_congr hloose]
    _ = (d.within seeds depth).filter fun x ↦ d.adjacent x = [] := by
        rw [← hhandles, List.filter_map]
        rfl
    _ = seeds.filter fun x ↦ d.adjacent x = [] := by
        refine filter_within hn fun x hx hnil ↦ ?_
        rw [within_eq_ball] at hx
        exact mem_seeds_of_adjacent_eq_nil hx (of_decide_eq_true hnil)

/-- Around an unused type, nothing else is found. -/
theorem within_of_mem_unused (hx : x ∈ d.unused) (depth : Nat) : d.within [x] depth = [x] := by
  have hzero : d.ball [x] 0 = [x] := firsts_eq_self (List.nodup_singleton x) (by simp)
  have hnext : d.sphere [x] 1 = [] := by
    have hlast : d.sphere [x] 0 = [x] := hzero
    rw [sphere_succ, hlast, List.flatMap_singleton, (mem_unused_iff_adjacent.mp hx).2]
    rfl
  rw [within_eq_ball, ball_eq_of_sphere_eq_nil hnext (Nat.zero_le depth), hzero]

/-! ## Extractions do not cut types loose -/

/-- **An extraction shows a type as unused only if it is unused.**  Extract around an issued handle,
at a bound of at least one.  The extraction succeeds, and its handles stand for those that the
search finds.  If the type is unused, it is the one unused type of the extraction; otherwise the
extraction has none.  In particular it has none if it shows two types or more.  Around a name that
some type has, the unused types of the extraction are the unused types of that name, in their
order. -/
theorem Reachable.unused_extraction (hd : d.Reachable) (hdepth : 1 ≤ depth) :
    (∀ seed, d.issued seed = true →
      ∃ part f, d.neighbourhood seed depth = .ok part ∧
        part.value.Lists d (d.within [seed] depth) f ∧
        part.value.unused.map f = (if seed ∈ d.unused then [seed] else []) ∧
        (2 ≤ part.value.decls.length → part.value.unused = [])) ∧
    ∀ name, (∃ x decl, d.decl? x = some decl ∧ decl.name = name) →
      ∃ part f, d.focus name depth = .ok part ∧
        part.value.Lists d (d.within (d.handlesNamed name) depth) f ∧
        part.value.unused.map f =
          d.unused.filter fun x ↦ (d.decl? x).any fun decl ↦ decl.name = name := by
  have hwf := hd.wellFormed
  obtain ⟨haround, hnamed⟩ := forall_extractions (d := d)
    (P := fun seeds view ↦ ∃ part f, view depth = .ok part ∧
      part.value.Lists d (d.within seeds depth) f ∧
      part.value.unused.map f = seeds.filter fun x ↦ d.adjacent x = [])
    fun seeds hn hs ↦ ⟨_, _, rfl, hwf.lists_extract hs depth, hwf.unused_extract hn hs hdepth⟩
  refine ⟨fun seed hseed ↦ ?_, fun name hname ↦ ?_⟩
  · obtain ⟨part, f, hpart, hlists, hunused⟩ := haround seed hseed
    have hmem : seed ∈ d.unused ↔ d.adjacent seed = [] := by
      rw [mem_unused_iff_adjacent, and_iff_right hseed]
    have hsingle : ([seed].filter fun x ↦ d.adjacent x = []) =
        if seed ∈ d.unused then [seed] else [] := by
      simp [List.filter_cons, hmem]
    rw [hsingle] at hunused
    refine ⟨part, f, hpart, hlists, hunused, fun hlength ↦ ?_⟩
    by_cases hloose : seed ∈ d.unused
    · -- then the seed is all that is shown
      have hone := congrArg List.length hlists.handles
      rw [within_of_mem_unused hloose, List.length_map, handles, List.length_range] at hone
      rw [hone, List.length_singleton] at hlength
      omega
    · rw [if_neg hloose] at hunused
      exact List.map_eq_nil_iff.mp hunused
  · obtain ⟨part, f, hpart, hlists, hunused⟩ := hnamed name hname
    refine ⟨part, f, hpart, hlists, hunused.trans ?_⟩
    rw [unused_eq_filter, List.filter_comm]
    rfl

/-- Three types are called `A`, and one of them has no relations.  At the bound zero, the other ones
look as if they had none. -/
theorem unused_extraction_tangle :
    let d := (History.tangle.diagram.addDecl (.named "A" "")).2
    d.Reachable ∧ 1 ≤ 1 ∧ d.unused = [4] ∧
    (d.issued 4 = true ∧
      ∃ part f, d.neighbourhood 4 1 = .ok part ∧ part.value.Lists d (d.within [4] 1) f ∧
        part.value.unused.map f = [4]) ∧
    (d.issued 3 = true ∧
      ∃ part f, d.neighbourhood 3 1 = .ok part ∧ part.value.Lists d (d.within [3] 1) f ∧
        part.value.unused.map f = [] ∧ (2 ≤ part.value.decls.length → part.value.unused = [])) ∧
    (2 ≤ (d.extract [3] 1).value.decls.length ∧ (d.extract [3] 0).value.unused = [0]) ∧
    (∃ x decl, d.decl? x = some decl ∧ decl.name = "A") ∧
    ∃ part f, d.focus "A" 1 = .ok part ∧
      part.value.Lists d (d.within (d.handlesNamed "A") 1) f ∧ part.value.unused.map f = [4] := by
  intro d
  have hd : d.Reachable := (History.tangle.wellFormed.addDecl _).reachable
  have hdepth : 1 ≤ 1 := Nat.le_refl 1
  have hunused : d.unused = [4] := by decide +kernel
  have hname : ∃ x decl, d.decl? x = some decl ∧ decl.name = "A" := ⟨4, .named "A" "", rfl, rfl⟩
  have h : _ ∧ _ := hd.unused_extraction hdepth
  obtain ⟨part, f, hpart, hlists, hmap, -⟩ := h.1 4 (by decide)
  obtain ⟨part', f', hpart', hlists', hmap', hseveral⟩ := h.1 3 (by decide)
  obtain ⟨named, g, hnamed, hlistsNamed, hmapNamed⟩ := h.2 "A" hname
  rw [hunused] at hmap hmap' hmapNamed
  exact ⟨hd, hdepth, hunused, ⟨by decide, part, f, hpart, hlists, hmap⟩,
    ⟨by decide, part', f', hpart', hlists', hmap', hseveral⟩,
    ⟨by decide +kernel, by decide +kernel⟩, hname, named, g, hnamed, hlistsNamed, hmapNamed⟩

end Diagram
end TypeDiagram
