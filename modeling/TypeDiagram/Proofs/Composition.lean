import TypeDiagram.Proofs.History

/-!
# Extracting from an extraction

A part of a diagram is a diagram, so one can ask it for a neighbourhood again.  The answer is the
neighbourhood in the whole diagram, at the smaller one of the two bounds, down to the order of the
types and of the relations.

The search in the part sees fewer relations than the search in the whole: a type at the rim of the
part has lost the neighbours outside.  `Diagram.layers_restrict_ball` compares the two searches
layer by layer and finds that the layers agree, up to the renumbering.  Inside the bound this is so
because all neighbours of a type in layer `k` are in layer `k + 1` at the latest, so none of them is
lost.  Beyond the bound nothing is left to find in the part: the next layer of the whole diagram
lies outside.

What remains is to see that the second search starts from the right types.  Seeds come first in the
order of discovery (`Diagram.filterMap_seeds`), so the seed of a neighbourhood has handle zero in
it; and all types of a name are seeds when it was asked for by that name
(`Diagram.WellFormed.handlesNamed_restrict`).

## What is here

* `Diagram.layers_restrict_ball` and `Diagram.ball_restrict_ball` — a search in a ball, compared
  with the search in the diagram.
* `Diagram.WellFormed.restrict_within_restrict` — **an extraction from an extraction is an
  extraction**, for any issued seeds.
* `Diagram.Composes` — to extract twice is to extract once, at the smaller bound; and
  `Diagram.WellFormed.composes` — this is true of both ways to name the seeds.

Both extractions have to start from the same types.  Around another type of the part, the second
search may come to the rim at once, and then it shows less than a search in the diagram would.
-/

set_option autoImplicit false

namespace TypeDiagram
namespace Diagram

variable {d : Diagram} {seeds : List Nat}

/-! ## The layers of a part -/

/-- The neighbours of the selected types, in the part and in the whole. -/
theorem flatMap_adjacent_restrict {order handles : List Nat} (hsub : ∀ x ∈ handles, x ∈ order) :
    (handles.filterMap order.idxOf?).flatMap (d.restrict order).adjacent =
      (handles.flatMap d.adjacent).filterMap order.idxOf? := by
  induction handles with
  | nil => rfl
  | cons x rest ih =>
    obtain ⟨i, hi⟩ := exists_idxOf?_of_mem (hsub x List.mem_cons_self)
    rw [List.filterMap_cons, hi, List.flatMap_cons, List.flatMap_cons, List.filterMap_append,
      adjacent_restrict hi, ih fun y hy ↦ hsub y (List.mem_cons_of_mem _ hy)]

/-- **The layers of a ball are the layers of the whole diagram**, up to the bound of the ball and
one layer further. -/
theorem layers_restrict_ball (d : Diagram) (seeds : List Nat) (n : Nat) {k : Nat} (hk : k ≤ n + 1) :
    let g := (d.ball seeds n).idxOf?
    let part := d.restrict (d.ball seeds n)
    part.ball (seeds.filterMap g) k = (d.ball seeds k).filterMap g ∧
      part.sphere (seeds.filterMap g) k = (d.sphere seeds k).filterMap g := by
  intro g part
  have hfirsts := filterMap_firsts (g := g) fun x y i ↦ idxOf?_inj
  induction k with
  | zero => exact ⟨(hfirsts [] seeds).symm, (hfirsts [] seeds).symm⟩
  | succ k ih =>
    obtain ⟨hball, hsphere⟩ := ih (Nat.le_of_succ_le hk)
    -- layer `k` is inside the bound, so the renumbering loses none of it
    have hinside : ∀ x ∈ d.sphere seeds k, x ∈ d.ball seeds n := fun x hx ↦
      (ball_isPrefix (Nat.le_of_succ_le_succ hk)).subset (sphere_subset_ball k hx)
    have hnext : part.sphere (seeds.filterMap g) (k + 1) =
        (d.sphere seeds (k + 1)).filterMap g := by
      rw [sphere_succ, sphere_succ, hball, hsphere, flatMap_adjacent_restrict hinside, hfirsts]
    refine ⟨?_, hnext⟩
    rw [ball_succ, ball_succ, List.filterMap_append, hball, hnext]

/-- The layer after the bound lies outside. -/
theorem filterMap_sphere_succ (d : Diagram) (seeds : List Nat) (n : Nat) :
    (d.sphere seeds (n + 1)).filterMap (d.ball seeds n).idxOf? = [] := by
  refine List.filterMap_eq_nil_iff.mpr fun x hx ↦ List.idxOf?_eq_none_iff.mpr ?_
  rw [sphere_succ] at hx
  exact (mem_firsts.mp hx).2

/-- **The balls of a ball are the smaller balls.** -/
theorem ball_restrict_ball (d : Diagram) (seeds : List Nat) (n k : Nat) :
    (d.restrict (d.ball seeds n)).ball (seeds.filterMap (d.ball seeds n).idxOf?) k =
      (d.ball seeds (min n k)).filterMap (d.ball seeds n).idxOf? := by
  rcases Nat.le_total k n with hk | hk
  · rw [Nat.min_eq_right hk]
    exact (layers_restrict_ball d seeds n (Nat.le_succ_of_le hk)).1
  · have hempty := (layers_restrict_ball d seeds n (Nat.le_refl (n + 1))).2
    rw [filterMap_sphere_succ] at hempty
    rw [Nat.min_eq_left hk, ball_eq_of_sphere_eq_nil hempty hk]
    exact (layers_restrict_ball d seeds n (Nat.le_succ n)).1

/-- An extraction from the part around some seeds, by the new handles of these seeds, is the
extraction from the whole at the smaller bound. -/
theorem WellFormed.restrict_within_restrict (hd : d.WellFormed)
    (hs : ∀ s ∈ seeds, d.issued s = true) (n k : Nat) :
    let part := d.restrict (d.within seeds n)
    part.restrict (part.within (seeds.filterMap (d.within seeds n).idxOf?) k) =
      d.restrict (d.within seeds (min n k)) := by
  intro part
  have hselection := hd.selection_within hs n
  rw [within_eq_ball d seeds n] at hselection
  simp only [part, within_eq_ball]
  rw [ball_restrict_ball]
  exact hselection.restrict_restrict fun x hx ↦ (ball_isPrefix (Nat.min_le_left n k)).subset hx

/-! ## The seeds of a part -/

/-- Seeds without repetitions come first in the order of discovery. -/
theorem isPrefix_within (hn : seeds.Nodup) (depth : Nat) : seeds <+: d.within seeds depth := by
  have hzero : d.ball seeds 0 = seeds := firsts_eq_self hn fun x _ ↦ List.not_mem_nil
  rw [within_eq_ball]
  nth_rewrite 1 [← hzero]
  exact ball_isPrefix (Nat.zero_le depth)

/-- Seeds get the first numbers. -/
theorem filterMap_seeds (hn : seeds.Nodup) (depth : Nat) :
    seeds.filterMap (d.within seeds depth).idxOf? = List.range seeds.length :=
  filterMap_idxOf?_of_isPrefix (nodup_within d seeds depth) (isPrefix_within hn depth)

/-- A single seed has handle zero in the part around it. -/
theorem idxOf?_seed (d : Diagram) (seed depth : Nat) :
    (d.within [seed] depth).idxOf? seed = some 0 := by
  obtain ⟨rest, hrest⟩ := isPrefix_within (d := d) (List.nodup_singleton seed) depth
  rw [← hrest, List.singleton_append, List.idxOf?_cons, if_pos (beq_self_eq_true seed)]

/-- If only seeds pass a test, then what passes it in the order of discovery are the seeds that
do, in their order. -/
theorem filter_within (hn : seeds.Nodup) {depth : Nat} {p : Nat → Bool}
    (hp : ∀ x ∈ d.within seeds depth, p x = true → x ∈ seeds) :
    (d.within seeds depth).filter p = seeds.filter p := by
  have hnodup := d.nodup_within seeds depth
  obtain ⟨rest, hrest⟩ := isPrefix_within (d := d) hn depth
  rw [← hrest] at hnodup hp ⊢
  have hnone : rest.filter p = [] := List.filter_eq_nil_iff.mpr fun x hx hpx ↦
    have hseed := hp x (List.mem_append_right _ hx) hpx
    (List.nodup_append.mp hnodup).2.2 x hseed x hx rfl
  rw [List.filter_append, hnone, List.append_nil]

/-- In the order of discovery around a name, the seeds are the types of that name. -/
theorem filter_within_handlesNamed (d : Diagram) (name : String) (depth : Nat) :
    (d.within (d.handlesNamed name) depth).filter
        (fun x ↦ (d.decl? x).any fun decl ↦ decl.name = name) = d.handlesNamed name := by
  have hnamed : ∀ x, (d.decl? x).any (fun decl ↦ decl.name = name) = true ↔
      x ∈ d.handlesNamed name := fun x ↦ by
    rw [mem_handlesNamed, Option.any_eq_true]
    simp only [decide_eq_true_eq]
  rw [filter_within (d.nodup_handlesNamed name) fun x _ ↦ (hnamed x).mp]
  exact List.filter_eq_self.mpr fun x ↦ (hnamed x).mpr

/-- **The types of a name, in the part around that name**, are the seeds with their new handles. -/
theorem WellFormed.handlesNamed_restrict (hd : d.WellFormed) (name : String) (depth : Nat) :
    (d.restrict (d.within (d.handlesNamed name) depth)).handlesNamed name =
      (d.handlesNamed name).filterMap (d.within (d.handlesNamed name) depth).idxOf? := by
  have hs : ∀ s ∈ d.handlesNamed name, d.issued s = true := fun s ↦ issued_of_mem_handlesNamed
  have h := hd.selection_within hs depth
  have hhandles : (d.restrict (d.within (d.handlesNamed name) depth)).handles =
      (d.within (d.handlesNamed name) depth).filterMap
        (d.within (d.handlesNamed name) depth).idxOf? := by
    rw [handles, h.length_restrict, filterMap_idxOf?_of_isPrefix h.nodup List.prefix_rfl]
  rw [handlesNamed, hhandles, filter_filterMap_comm fun x i hx ↦ by rw [h.decl?_restrict hx],
    filter_within_handlesNamed]

/-! ## Extractions compose -/

/-- To extract by `view`, and then from the result by `again`, is to extract once by `view`, at the
smaller of the two bounds. -/
def Composes (view : Nat → Except Error (Logged Diagram))
    (again : Diagram → Nat → Except Error (Logged Diagram)) : Prop :=
  ∀ n k, ∃ outer inner direct, view n = .ok outer ∧ again outer.value k = .ok inner ∧
    view (min n k) = .ok direct ∧ inner.value = direct.value

/-- What composes at the smaller bound changes nothing at the same bound. -/
theorem Composes.idempotent {view : Nat → Except Error (Logged Diagram)}
    {again : Diagram → Nat → Except Error (Logged Diagram)} (h : Composes view again) (n : Nat) :
    ∃ outer inner, view n = .ok outer ∧ again outer.value n = .ok inner ∧
      inner.value = outer.value := by
  obtain ⟨outer, inner, direct, houter, hinner, hdirect, heq⟩ := h n n
  rw [Nat.min_self, houter] at hdirect
  exact ⟨outer, inner, houter, hinner, heq.trans (Except.ok.inj hdirect ▸ rfl)⟩

/-- **Both ways to extract compose.**  The first type of a neighbourhood is the one around which it
was extracted, and the types of a name keep their name: so the second extraction starts from the
seeds of the first one, under the numbers that they have in the part. -/
theorem WellFormed.composes (hd : d.WellFormed) :
    (∀ seed, d.issued seed = true →
      Composes (d.neighbourhood seed) fun part ↦ part.neighbourhood 0) ∧
    ∀ name, (∃ x decl, d.decl? x = some decl ∧ decl.name = name) →
      Composes (d.focus name) fun part ↦ part.focus name := by
  obtain ⟨hseed, hname⟩ := forall_extractions (d := d)
    (P := fun seeds view ↦ ∀ again : Diagram → Nat → Except Error (Logged Diagram),
      (∀ n k, again (d.extract seeds n).value k = .ok ((d.extract seeds n).value.extract
        (seeds.filterMap (d.within seeds n).idxOf?) k)) → Composes view again)
    fun seeds _ hs again hagain n k ↦
      ⟨_, _, _, rfl, hagain n k, rfl, hd.restrict_within_restrict hs n k⟩
  refine ⟨fun seed hissued ↦ hseed seed hissued _ fun n k ↦ ?_,
    fun name hsome ↦ hname name hsome _ fun n k ↦ ?_⟩
  · have hfirst := idxOf?_seed d seed n
    have hs : ∀ s ∈ [seed], d.issued s = true := List.forall_mem_singleton.mpr hissued
    rw [List.filterMap_cons, hfirst]
    exact neighbourhood_eq_ok_iff.mpr
      ⟨(hd.selection_within hs n).issued_restrict hfirst, rfl⟩
  · have hseeds := hd.handlesNamed_restrict name n
    refine focus_eq_ok_iff.mpr ⟨?_, by rw [← hseeds]; rfl⟩
    show (d.restrict _).handlesNamed name ≠ []
    rw [hseeds, filterMap_seeds (d.nodup_handlesNamed name)]
    simpa using handlesNamed_ne_nil_iff.mpr hsome

/-- **Extractions compose, at the smaller of their bounds.**  To extract around an issued handle,
and then around the same type in the result, is to extract once at the smaller bound: the same types
under the same handles, and the same relations in the same order.  The same is true of a name that
some type has.  So extracting twice at one bound is extracting once. -/
theorem Reachable.extraction_composes (hd : d.Reachable) :
    (∀ seed n k, d.issued seed = true →
      ∃ outer inner direct, d.neighbourhood seed n = .ok outer ∧
        outer.value.neighbourhood 0 k = .ok inner ∧ d.neighbourhood seed (min n k) = .ok direct ∧
        inner.value = direct.value) ∧
    (∀ name n k, (∃ x decl, d.decl? x = some decl ∧ decl.name = name) →
      ∃ outer inner direct, d.focus name n = .ok outer ∧ outer.value.focus name k = .ok inner ∧
        d.focus name (min n k) = .ok direct ∧ inner.value = direct.value) ∧
    (∀ seed n, d.issued seed = true →
      ∃ outer inner, d.neighbourhood seed n = .ok outer ∧
        outer.value.neighbourhood 0 n = .ok inner ∧ inner.value = outer.value) ∧
    ∀ name n, (∃ x decl, d.decl? x = some decl ∧ decl.name = name) →
      ∃ outer inner, d.focus name n = .ok outer ∧ outer.value.focus name n = .ok inner ∧
        inner.value = outer.value := by
  obtain ⟨haround, hnamed⟩ := hd.wellFormed.composes
  exact ⟨fun seed n k hseed ↦ haround seed hseed n k, fun name n k hname ↦ hnamed name hname n k,
    fun seed n hseed ↦ (haround seed hseed).idempotent n,
    fun name n hname ↦ (hnamed name hname).idempotent n⟩

theorem extraction_composes_tangle :
    let d := History.tangle.diagram
    (d.issued 1 = true ∧
      ∃ outer inner direct, d.neighbourhood 1 1 = .ok outer ∧
        outer.value.neighbourhood 0 2 = .ok inner ∧ d.neighbourhood 1 (min 1 2) = .ok direct ∧
        inner.value = direct.value) ∧
    (∃ x decl, d.decl? x = some decl ∧ decl.name = "A") ∧
    ∃ outer inner direct, d.focus "A" 2 = .ok outer ∧ outer.value.focus "A" 1 = .ok inner ∧
      d.focus "A" (min 2 1) = .ok direct ∧ inner.value = direct.value := by
  intro d
  have hseed : d.issued 1 = true := by decide
  have hname : ∃ x decl, d.decl? x = some decl ∧ decl.name = "A" := ⟨3, .named "A" "", rfl, rfl⟩
  obtain ⟨haround, hnamed, -⟩ := Reachable.extraction_composes (d := d) ⟨History.tangle, rfl⟩
  exact ⟨⟨hseed, haround 1 1 2 hseed⟩, hname, hnamed "A" 2 1 hname⟩

end Diagram
end TypeDiagram
