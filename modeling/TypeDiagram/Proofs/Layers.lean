import TypeDiagram.Diagram.Exploration

/-!
# Exploring layer by layer

An exploration works off a queue, one type after the other.  This file describes the same search
without a queue.  Layer zero consists of the seeds; the next layer consists of the neighbours of
the last one, in the order of the last one, as far as they are in no layer yet.

## What is here

* `firsts known handles` — the handles that are not known yet, each where it stands first.  This is
  all that a series of discoveries adds to an exploration (`Exploration.foldl_discover`).
* `Diagram.sphere` and `Diagram.ball` — the types of a single layer, and those of all layers up to
  it.  `Diagram.mem_ball_succ` says that a ball grows by the neighbours of its members.
* `Diagram.within_eq_ball` — **the queue works layer by layer**: the order in which an exploration
  finds the types is the order of the layers.

The proof of the last one does not follow the loop round by round.  `Diagram.explore_layer` takes
all rounds of a layer together: types at the same distance at the head of the queue have the effect
of looking at all their neighbours in turn.

## Layers and distances

The loop goes by its table of distances: the neighbours of a type are looked at if its distance is
below the bound.  In the description by layers there is no table, and the bound is the number of the
last layer.  The two meet in `Diagram.AtLayer`, which says how order, queue and table look when the
queue holds all of one layer and nothing else.  Between two such moments the queue holds the end of
one layer and the beginning of the next.  Nothing is said about those moments here; they are looked
at in `TypeDiagram.Proofs.Worklist`.

A type is marked as found when it enters the queue, so it enters once.  Seeds that are repeated are
dropped in the same way, at the start.
-/

set_option autoImplicit false

namespace TypeDiagram

/-! ## First occurrences -/

/-- The handles of a list that are not known yet, each where it stands first. -/
def firsts (known : List Nat) : List Nat → List Nat
  | [] => []
  | h :: rest => if h ∈ known then firsts known rest else h :: firsts (known ++ [h]) rest

theorem mem_firsts {known handles : List Nat} {x : Nat} :
    x ∈ firsts known handles ↔ x ∈ handles ∧ x ∉ known := by
  induction handles generalizing known with
  | nil => simp [firsts]
  | cons h rest ih =>
    rw [firsts]
    split
    · next hk =>
      rw [ih, List.mem_cons]
      refine ⟨fun hx ↦ ⟨.inr hx.1, hx.2⟩, fun ⟨hx, hxk⟩ ↦ ⟨hx.resolve_left ?_, hxk⟩⟩
      rintro rfl
      exact hxk hk
    · next hk =>
      rw [List.mem_cons, ih, List.mem_cons, List.mem_append, List.mem_singleton]
      by_cases hx : x = h
      · subst hx
        simp [hk]
      · simp [hx]

theorem nodup_firsts (known handles : List Nat) : (firsts known handles).Nodup := by
  induction handles generalizing known with
  | nil => exact List.nodup_nil
  | cons h rest ih =>
    rw [firsts]
    split
    · exact ih known
    · refine List.nodup_cons.mpr ⟨fun hmem ↦ ?_, ih (known ++ [h])⟩
      exact (mem_firsts.mp hmem).2 (List.mem_append_right _ (List.mem_singleton.mpr rfl))

theorem nodup_append_firsts {known : List Nat} (hk : known.Nodup) (handles : List Nat) :
    (known ++ firsts known handles).Nodup := by
  refine List.nodup_append.mpr ⟨hk, nodup_firsts known handles, fun a ha b hb hab ↦ ?_⟩
  exact (mem_firsts.mp hb).2 (hab ▸ ha)

/-- In a list without repetitions everything stands first. -/
theorem firsts_eq_self {known handles : List Nat} (hn : handles.Nodup)
    (h : ∀ x ∈ handles, x ∉ known) : firsts known handles = handles := by
  induction handles generalizing known with
  | nil => rfl
  | cons x rest ih =>
    obtain ⟨hx, hrest⟩ := List.nodup_cons.mp hn
    rw [firsts, if_neg (h x List.mem_cons_self), ih hrest fun y hy hmem ↦ ?_]
    rcases List.mem_append.mp hmem with hmem | hmem
    · exact h y (List.mem_cons_of_mem _ hy) hmem
    · exact hx (List.mem_singleton.mp hmem ▸ hy)

/-- Renumbering the handles renumbers the first occurrences, even if some handles get no number, as
long as no two handles get the same one. -/
theorem filterMap_firsts {g : Nat → Option Nat}
    (hg : ∀ x y i, g x = some i → g y = some i → x = y) (known handles : List Nat) :
    (firsts known handles).filterMap g = firsts (known.filterMap g) (handles.filterMap g) := by
  induction handles generalizing known with
  | nil => rfl
  | cons h rest ih =>
    rw [firsts, List.filterMap_cons]
    cases hh : g h with
    | none =>
      -- `h` is known afterwards or not, but it has no number
      split
      · exact ih known
      · rw [List.filterMap_cons, hh, ih, List.filterMap_append, List.filterMap_cons, hh,
          List.filterMap_nil, List.append_nil]
    | some i =>
      have hmem : i ∈ known.filterMap g ↔ h ∈ known := by
        rw [List.mem_filterMap]
        refine ⟨fun ⟨x, hx, hxi⟩ ↦ hg x h i hxi hh ▸ hx, fun hk ↦ ⟨h, hk, hh⟩⟩
      by_cases hk : h ∈ known
      · rw [if_pos hk, firsts, if_pos (hmem.mpr hk), ih]
      · rw [if_neg hk, firsts, if_neg fun hm ↦ hk (hmem.mp hm), List.filterMap_cons, hh, ih,
          List.filterMap_append, List.filterMap_cons, hh, List.filterMap_nil]

/-! ## What a series of discoveries adds -/

namespace Exploration

/-- The table of distances has an entry for each type found, and for no other. -/
def Coherent (e : Exploration) : Prop := ∀ h, e.found h = true ↔ h ∈ e.order

theorem coherent_blank : blank.Coherent := fun h ↦ by simp [blank, found, distance?]

theorem Coherent.discover {e : Exploration} (he : e.Coherent) (distance handle : Nat) :
    (e.discover distance handle).Coherent := by
  intro h
  rw [found_discover, Bool.or_eq_true, he h, beq_iff_eq, Exploration.discover]
  by_cases hf : e.found handle = true
  · rw [if_pos hf]
    refine ⟨fun hh ↦ hh.elim id ?_, .inl⟩
    rintro rfl
    exact (he h).mp hf
  · rw [if_neg hf, List.mem_append, List.mem_singleton]

/-- **What a series of discoveries does**: the handles that are new join the order and the queue,
each where it stands first, and all of them get the same distance. -/
theorem foldl_discover {e : Exploration} (he : e.Coherent) (distance : Nat) (handles : List Nat) :
    handles.foldl (discover distance) e =
      ⟨e.order ++ firsts e.order handles,
        (firsts e.order handles).reverse.map (fun h ↦ (h, distance)) ++ e.distances,
        e.queue ++ firsts e.order handles⟩ := by
  induction handles generalizing e with
  | nil => simp [firsts]
  | cons h rest ih =>
    rw [List.foldl_cons, ih (he.discover distance h), firsts, discover]
    by_cases hf : e.found h = true
    · rw [if_pos hf, if_pos ((he h).mp hf)]
    · rw [if_neg hf, if_neg fun hmem ↦ hf ((he h).mpr hmem)]
      simp [List.append_assoc]

theorem Coherent.foldl_discover {e : Exploration} (he : e.Coherent) (distance : Nat)
    (handles : List Nat) : (handles.foldl (Exploration.discover distance) e).Coherent := by
  induction handles generalizing e with
  | nil => exact he
  | cons h rest ih => exact ih (he.discover distance h)

theorem lookup_map_append {distance x : Nat} {news : List Nat} {table : List (Nat × Nat)} :
    (news.map (fun h ↦ (h, distance)) ++ table).lookup x =
      if x ∈ news then some distance else table.lookup x := by
  induction news with
  | nil => simp
  | cons h rest ih =>
    rw [List.map_cons, List.cons_append, List.lookup_cons, ih]
    by_cases hx : x = h
    · simp [hx]
    · simp [hx, beq_false_of_ne hx]

/-- The new handles get the distance of the series, and the others keep theirs. -/
theorem distance?_foldl_discover {e : Exploration} (he : e.Coherent) (distance : Nat)
    (handles : List Nat) (x : Nat) :
    (handles.foldl (discover distance) e).distance? x =
      if x ∈ firsts e.order handles then some distance else e.distance? x := by
  rw [foldl_discover he, distance?, lookup_map_append]
  simp only [List.mem_reverse]
  rfl

/-- A series of discoveries leaves the distances of the types found before. -/
theorem distance?_foldl_discover_of_found {e : Exploration} (he : e.Coherent) {x k : Nat}
    (hx : e.distance? x = some k) (distance : Nat) (handles : List Nat) :
    (handles.foldl (discover distance) e).distance? x = some k := by
  have hfound : x ∈ e.order := (he x).mp (by rw [found, hx, Option.isSome_some])
  rw [distance?_foldl_discover he, if_neg fun hmem ↦ (mem_firsts.mp hmem).2 hfound, hx]

end Exploration

/-! ## Layers -/

namespace Diagram

/-- The types in the layers up to a number, and those in the last of these layers. -/
def layers (d : Diagram) (seeds : List Nat) : Nat → List Nat × List Nat
  | 0 => (firsts [] seeds, firsts [] seeds)
  | k + 1 =>
    let found := d.layers seeds k
    let next := firsts found.1 (found.2.flatMap d.adjacent)
    (found.1 ++ next, next)

/-- The types in the layers up to `k`, nearest first. -/
def ball (d : Diagram) (seeds : List Nat) (k : Nat) : List Nat := (d.layers seeds k).1

/-- The types in layer `k`. -/
def sphere (d : Diagram) (seeds : List Nat) (k : Nat) : List Nat := (d.layers seeds k).2

variable {d : Diagram} {seeds : List Nat}

theorem ball_zero : d.ball seeds 0 = firsts [] seeds := rfl

theorem ball_succ (k : Nat) : d.ball seeds (k + 1) = d.ball seeds k ++ d.sphere seeds (k + 1) := rfl

theorem sphere_succ (k : Nat) :
    d.sphere seeds (k + 1) = firsts (d.ball seeds k) ((d.sphere seeds k).flatMap d.adjacent) := rfl

theorem nodup_ball (k : Nat) : (d.ball seeds k).Nodup := by
  induction k with
  | zero => exact nodup_firsts [] seeds
  | succ k ih => exact nodup_append_firsts ih _

theorem ball_isPrefix_succ (k : Nat) : d.ball seeds k <+: d.ball seeds (k + 1) :=
  List.prefix_append _ _

/-- A larger ball continues a smaller one. -/
theorem ball_isPrefix {k l : Nat} (h : k ≤ l) : d.ball seeds k <+: d.ball seeds l := by
  induction h with
  | refl => exact List.prefix_rfl
  | step _ ih => exact ih.trans (ball_isPrefix_succ _)

theorem sphere_subset_ball (k : Nat) : d.sphere seeds k ⊆ d.ball seeds k := by
  cases k with
  | zero => exact List.Subset.refl _
  | succ k => exact List.subset_append_right _ _

/-- The neighbours of a type in the ball are in the ball as well, unless the type is in its last
layer. -/
theorem mem_ball_of_mem_adjacent {k x y : Nat} (hy : y ∈ d.ball seeds k)
    (hlast : y ∉ d.sphere seeds k) (hx : x ∈ d.adjacent y) : x ∈ d.ball seeds k := by
  induction k with
  | zero => exact absurd hy hlast
  | succ k ih =>
    rw [ball_succ] at hy ⊢
    have hyk : y ∈ d.ball seeds k := (List.mem_append.mp hy).resolve_right hlast
    by_cases hyl : y ∈ d.sphere seeds k
    · by_cases hxk : x ∈ d.ball seeds k
      · exact List.mem_append_left _ hxk
      · refine List.mem_append_right _ ?_
        rw [sphere_succ]
        exact mem_firsts.mpr ⟨List.mem_flatMap.mpr ⟨y, hyl, hx⟩, hxk⟩
    · exact List.mem_append_left _ (ih hyk hyl)

/-- **A ball grows by the neighbours of its members.** -/
theorem mem_ball_succ {k x : Nat} :
    x ∈ d.ball seeds (k + 1) ↔
      x ∈ d.ball seeds k ∨ ∃ y ∈ d.ball seeds k, x ∈ d.adjacent y := by
  refine ⟨?_, ?_⟩
  · intro hx
    rw [ball_succ, List.mem_append, sphere_succ] at hx
    rcases hx with hx | hx
    · exact .inl hx
    · obtain ⟨y, hy, hxy⟩ := List.mem_flatMap.mp (mem_firsts.mp hx).1
      exact .inr ⟨y, sphere_subset_ball k hy, hxy⟩
  · rintro (hx | ⟨y, hy, hxy⟩)
    · exact (ball_isPrefix_succ k).subset hx
    · refine mem_ball_of_mem_adjacent ((ball_isPrefix_succ k).subset hy) (fun hlast ↦ ?_) hxy
      rw [sphere_succ] at hlast
      exact (mem_firsts.mp hlast).2 hy

/-- Once a layer is empty, all later ones are. -/
theorem ball_eq_of_sphere_eq_nil {k l : Nat} (h : d.sphere seeds (k + 1) = []) (hl : k ≤ l) :
    d.ball seeds l = d.ball seeds k := by
  have hstep : ∀ j, d.sphere seeds (k + 1 + j) = [] ∧ d.ball seeds (k + j) = d.ball seeds k := by
    intro j
    induction j with
    | zero => exact ⟨h, rfl⟩
    | succ j ih =>
      refine ⟨?_, ?_⟩
      · rw [← Nat.add_assoc, sphere_succ, ih.1]
        rfl
      · rw [← Nat.add_assoc, ball_succ, Nat.add_right_comm, ih.1, List.append_nil, ih.2]
  have hkl := (hstep (l - k)).2
  rwa [Nat.add_sub_cancel' hl] at hkl

/-! ## The queue works layer by layer -/

open Exploration

theorem expand_of_lt {e : Exploration} {depth handle k : Nat} (h : e.distance? handle = some k)
    (hk : k < depth) :
    d.expand depth handle e = (d.adjacent handle).foldl (discover (k + 1)) e := by
  rw [expand, h]
  exact if_pos hk

theorem expand_of_le {e : Exploration} {depth handle k : Nat} (h : e.distance? handle = some k)
    (hk : depth ≤ k) : d.expand depth handle e = e := by
  rw [expand, h]
  exact if_neg (Nat.not_lt.mpr hk)

theorem explore_of_queue_eq_nil {e : Exploration} (depth : Nat) (hq : e.queue = []) :
    d.explore depth e = e := by
  rw [explore, if_pos hq]

theorem explore_of_queue_eq_cons {e : Exploration} (depth : Nat) {h : Nat} {rest : List Nat}
    (hq : e.queue = h :: rest) :
    d.explore depth e = d.explore depth (d.expand depth h { e with queue := rest }) := by
  have hne : e.queue ≠ [] := by
    rw [hq]
    exact List.cons_ne_nil h rest
  rw [explore, if_neg hne, round, hq]

/-- **The rounds of a layer, taken together.**  If the types at the head of the queue are all at
the distance `k`, then exploring them one by one has the effect of discovering all their neighbours
in turn at the distance `k + 1`. -/
theorem explore_layer {depth k : Nat} (hk : k < depth) (front : List Nat) {e : Exploration}
    (he : e.Coherent) (hdist : ∀ x ∈ front, e.distance? x = some k) {next : List Nat}
    (hq : e.queue = front ++ next) :
    d.explore depth e =
      d.explore depth
        ((front.flatMap d.adjacent).foldl (discover (k + 1)) { e with queue := next }) := by
  induction front generalizing e next with
  | nil =>
    rw [List.nil_append] at hq
    rw [List.flatMap_nil, List.foldl_nil, ← hq]
  | cons x rest ih =>
    have hexpand : d.expand depth x { e with queue := rest ++ next } =
        (d.adjacent x).foldl (discover (k + 1)) { e with queue := rest ++ next } :=
      expand_of_lt (hdist x List.mem_cons_self) hk
    have hco : ∀ q, Exploration.Coherent { e with queue := q } := fun _ ↦ he
    have hdist' : ∀ y ∈ rest, ((d.adjacent x).foldl (discover (k + 1))
        { e with queue := rest ++ next }).distance? y = some k := by
      intro y hy
      have hy' : e.distance? y = some k := hdist y (List.mem_cons_of_mem _ hy)
      exact distance?_foldl_discover_of_found (hco (rest ++ next)) hy' _ _
    -- what `x` contributes to the queue ends up behind `next`
    have hqueue : ((d.adjacent x).foldl (discover (k + 1)) { e with queue := rest ++ next }).queue =
        rest ++ (next ++ firsts e.order (d.adjacent x)) := by
      rw [foldl_discover (hco _), List.append_assoc]
    rw [List.cons_append] at hq
    rw [explore_of_queue_eq_cons depth hq, hexpand, ih ((hco _).foldl_discover _ _) hdist' hqueue,
      List.flatMap_cons, List.foldl_append, foldl_discover (hco (rest ++ next)),
      foldl_discover (hco next)]

/-- When every type in the queue is at the bound, nothing is found any more. -/
theorem explore_of_le {depth k : Nat} (hk : depth ≤ k) {e : Exploration}
    (hdist : ∀ x ∈ e.queue, e.distance? x = some k) :
    (d.explore depth e).order = e.order := by
  generalize hq : e.queue = queue at hdist
  induction queue generalizing e with
  | nil => rw [explore_of_queue_eq_nil depth hq]
  | cons x rest ih =>
    have hexpand : d.expand depth x { e with queue := rest } = { e with queue := rest } :=
      expand_of_le (hdist x List.mem_cons_self) hk
    rw [explore_of_queue_eq_cons depth hq, hexpand]
    exact ih rfl fun y hy ↦ hdist y (List.mem_cons_of_mem _ hy)

/-- The state of an exploration when the queue holds exactly layer `k`. -/
structure AtLayer (d : Diagram) (seeds : List Nat) (k : Nat) (e : Exploration) : Prop where
  coherent : e.Coherent
  order : e.order = d.ball seeds k
  queue : e.queue = d.sphere seeds k
  distance : ∀ x ∈ d.sphere seeds k, e.distance? x = some k

theorem atLayer_start (d : Diagram) (seeds : List Nat) : d.AtLayer seeds 0 (start seeds) := by
  refine ⟨coherent_blank.foldl_discover 0 seeds, ?_, ?_, fun x hx ↦ ?_⟩
  · rw [start, foldl_discover coherent_blank]
    rfl
  · rw [start, foldl_discover coherent_blank]
    rfl
  · rw [start, distance?_foldl_discover coherent_blank]
    exact if_pos hx

/-- Working off one layer leads to the next one. -/
theorem AtLayer.succ {k : Nat} {e : Exploration} (h : d.AtLayer seeds k e) :
    d.AtLayer seeds (k + 1)
      ((e.queue.flatMap d.adjacent).foldl (discover (k + 1)) { e with queue := [] }) := by
  have hco : Exploration.Coherent { e with queue := [] } := h.coherent
  have hnew : firsts e.order (e.queue.flatMap d.adjacent) = d.sphere seeds (k + 1) := by
    rw [h.order, h.queue, sphere_succ]
  refine ⟨hco.foldl_discover _ _, ?_, ?_, fun x hx ↦ ?_⟩
  · rw [foldl_discover hco, hnew, h.order, ball_succ]
  · rw [foldl_discover hco, hnew, List.nil_append]
  · rw [distance?_foldl_discover hco, hnew]
    exact if_pos hx

/-- The exploration passes through every layer up to the bound. -/
theorem exists_atLayer (d : Diagram) (seeds : List Nat) (depth : Nat) {k : Nat} (hk : k ≤ depth) :
    ∃ e, d.AtLayer seeds k e ∧ d.explore depth (start seeds) = d.explore depth e := by
  induction k with
  | zero => exact ⟨start seeds, atLayer_start d seeds, rfl⟩
  | succ k ih =>
    obtain ⟨e, he, heq⟩ := ih (Nat.le_of_succ_le hk)
    refine ⟨_, he.succ, heq.trans ?_⟩
    exact explore_layer hk e.queue he.coherent (fun x hx ↦ he.distance x (he.queue ▸ hx))
      (List.append_nil _).symm

/-- **An exploration finds the types layer by layer**, up to the bound. -/
theorem within_eq_ball (d : Diagram) (seeds : List Nat) (depth : Nat) :
    d.within seeds depth = d.ball seeds depth := by
  obtain ⟨e, he, heq⟩ := exists_atLayer d seeds depth (Nat.le_refl depth)
  rw [within, heq, ← he.order]
  exact explore_of_le (Nat.le_refl depth) fun x hx ↦ he.distance x (he.queue ▸ hx)

theorem nodup_within (d : Diagram) (seeds : List Nat) (depth : Nat) :
    (d.within seeds depth).Nodup := by
  rw [within_eq_ball]
  exact nodup_ball depth

end Diagram
end TypeDiagram
