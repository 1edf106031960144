import TypeDiagram.Proofs.Components
import Mathlib.Logic.Function.Iterate

/-!
# The work list of an exploration

An exploration consumes a queue and fills it at the same time.  In a diagram with cycles it meets
types again that it has already found, and it relies on its table of distances to tell these from
new ones.  This file follows the exploration round by round, from the seeds until the queue is
empty, and says what holds before each round.

## What is here

* `Exploration.grow` — the one way in which an exploration grows: new types join the order, the
  table and the queue, all at the same distance.
* `Diagram.exists_round_eq_grow` — **all that a round can do**: it takes the first type off the
  queue and adds neighbours of it, at a distance larger by one, or adds nothing.
* `Diagram.Orderly` — what order, table and queue have to do with each other, with
  `Diagram.Orderly.round` for one round and `Diagram.WellFormed.orderly_iterate` for any number.
* `Diagram.WellFormed.order_iterate` — the types found are those taken off the queue, followed by
  those that are still in it.  Since none is found twice, none is taken off twice.
* `Diagram.Orderly.exists_rounds` — **each round takes one type off the queue for good**, so there
  are as many rounds as types are found.
* `Diagram.SafeWorklist` — what this means for the exploration as a whole, clause by clause.

## Machine words

Distances are natural numbers here, and whether the next one fits a machine word is asked in the
statement.  This has nothing to do with the size of the diagram.  A distance is increased only when
it is below the bound, so none exceeds the bound, and the bound fits by assumption.  Even at the
largest bound that fits, the number after it is never computed.

## What the invariant leaves out

`Diagram.Orderly` does not say that the distances in the table are those of shortest walks, and it
does not mention layers.  Neither is needed for safety or for the end of the loop; what the search
finds is the subject of `TypeDiagram.Proofs.Layers` and `TypeDiagram.Proofs.Discovery`.  What it
does say is that distances ascend along the queue and span one step at most.  A round keeps this
because it takes a type from the front and adds types at the end, whose distance is the next one.
-/

set_option autoImplicit false

namespace TypeDiagram

/-! ## Adding new types -/

namespace Exploration

/-- The exploration after new types were found at a distance. -/
def grow (e : Exploration) (distance : Nat) (news : List Nat) : Exploration :=
  ⟨e.order ++ news, news.reverse.map (fun h ↦ (h, distance)) ++ e.distances, e.queue ++ news⟩

variable {e : Exploration} {distance x : Nat} {news : List Nat}

theorem grow_nil (e : Exploration) (distance : Nat) : e.grow distance [] = e := by
  simp [grow]

theorem distance?_grow :
    (e.grow distance news).distance? x = if x ∈ news then some distance else e.distance? x := by
  rw [distance?, grow, lookup_map_append]
  simp [distance?]

/-- What is in the table already keeps its distance when new types are found. -/
theorem distance?_grow_of_notMem (hx : x ∉ news) :
    (e.grow distance news).distance? x = e.distance? x := by
  rw [distance?_grow, if_neg hx]

/-- A type is found exactly when it is a key of the table. -/
theorem found_iff_mem_keys : e.found x = true ↔ x ∈ e.distances.map Prod.fst := by
  rw [found, distance?, List.lookup_isSome_iff, List.mem_map]
  simp only [beq_iff_eq, @eq_comm Nat x]

end Exploration

open Exploration

namespace Diagram

variable {d : Diagram} {seeds : List Nat} {depth : Nat} {e : Exploration}

/-! ## What a round can do -/

/-- **All that a round can do** is to take the first type off the queue and to add neighbours of it
that were not found before.  It adds none if the type is at the bound. -/
theorem exists_round_eq_grow (d : Diagram) (depth : Nat) (he : e.Coherent) {x k : Nat}
    {rest : List Nat} (hq : e.queue = x :: rest) (hk : e.distance? x = some k) :
    ∃ news : List Nat, d.round depth e = grow { e with queue := rest } (k + 1) news ∧
      news.Nodup ∧ (∀ y ∈ news, y ∈ d.adjacent x ∧ y ∉ e.order) ∧ (news ≠ [] → k < depth) := by
  have hround : d.round depth e = d.expand depth x { e with queue := rest } := by
    rw [round, hq]
  have hdistance : Exploration.distance? { e with queue := rest } x = some k := hk
  rcases Nat.lt_or_ge k depth with hlt | hge
  · refine ⟨firsts e.order (d.adjacent x), ?_, nodup_firsts _ _, fun y hy ↦ mem_firsts.mp hy,
      fun _ ↦ hlt⟩
    have hco : Exploration.Coherent { e with queue := rest } := he
    rw [hround, expand_of_lt hdistance hlt, foldl_discover hco, grow]
  · refine ⟨[], ?_, List.nodup_nil, by simp, by simp⟩
    rw [hround, expand_of_le hdistance hge, grow_nil]

theorem round_of_queue_eq_nil (hq : e.queue = []) : d.round depth e = e := by
  rw [round, hq]

/-! ## Order, table and queue -/

/-- What holds of an exploration before each round. -/
structure Orderly (d : Diagram) (depth : Nat) (e : Exploration) : Prop where
  /-- The keys of the table are the types of the order. -/
  keys : (e.distances.map Prod.fst).Perm e.order
  /-- No type stands twice in the order. -/
  nodup : e.order.Nodup
  /-- A type in the queue stands in the order. -/
  queued : ∀ x ∈ e.queue, x ∈ e.order
  /-- Along the queue the distances never go down, and none exceeds an earlier one by more than
  one. -/
  ascending : e.queue.Pairwise fun x y ↦
    ∃ k l, e.distance? x = some k ∧ e.distance? y = some l ∧ k ≤ l ∧ l ≤ k + 1
  /-- No distance in the table is larger than the bound. -/
  bounded : ∀ x k, e.distance? x = some k → k ≤ depth
  /-- The types of the order are types of the diagram. -/
  issued : ∀ x ∈ e.order, d.issued x = true

namespace Orderly

theorem coherent (h : d.Orderly depth e) : e.Coherent := fun _ ↦
  found_iff_mem_keys.trans h.keys.mem_iff

/-- The distance of a type in the queue is in the table. -/
theorem exists_distance (h : d.Orderly depth e) {x : Nat} (hx : x ∈ e.queue) :
    ∃ k, e.distance? x = some k :=
  Option.isSome_iff_exists.mp ((h.coherent x).mpr (h.queued x hx))

theorem blank : d.Orderly depth Exploration.blank := by
  constructor <;> simp [Exploration.blank, distance?]

/-- Taking the first type off the queue changes nothing else. -/
theorem dequeue (h : d.Orderly depth e) {x : Nat} {rest : List Nat} (hq : e.queue = x :: rest) :
    d.Orderly depth { e with queue := rest } where
  keys := h.keys
  nodup := h.nodup
  queued := fun y hy ↦ h.queued y (hq ▸ List.mem_cons_of_mem x hy)
  ascending := (List.pairwise_cons.mp (hq ▸ h.ascending)).2
  bounded := h.bounded
  issued := h.issued

/-- New types may be added at a distance that is not smaller than those in the queue, and larger
by at most one. -/
theorem grow (h : d.Orderly depth e) {distance : Nat} {news : List Nat} (hnodup : news.Nodup)
    (hnew : ∀ y ∈ news, d.issued y = true ∧ y ∉ e.order) (hdepth : news ≠ [] → distance ≤ depth)
    (hqueue : ∀ x ∈ e.queue, ∃ k, e.distance? x = some k ∧ k ≤ distance ∧ distance ≤ k + 1) :
    d.Orderly depth (e.grow distance news) := by
  have hold : ∀ x ∈ e.order, (e.grow distance news).distance? x = e.distance? x := fun x hx ↦
    distance?_grow_of_notMem fun hmem ↦ (hnew x hmem).2 hx
  have hnews : ∀ x ∈ news, (e.grow distance news).distance? x = some distance := fun x hx ↦ by
    rw [distance?_grow, if_pos hx]
  refine ⟨?_, ?_, fun x hx ↦ ?_, List.pairwise_append.mpr ⟨?_, ?_, fun x hx y hy ↦ ?_⟩,
    fun x k hk ↦ ?_, fun x hx ↦ ?_⟩
  · have hkeys : ((e.grow distance news).distances.map Prod.fst) =
        news.reverse ++ e.distances.map Prod.fst := by
      simp [Exploration.grow, Function.comp_def]
    rw [hkeys]
    exact ((List.reverse_perm news).append h.keys).trans List.perm_append_comm
  · refine List.nodup_append.mpr ⟨h.nodup, hnodup, fun x hx y hy hxy ↦ ?_⟩
    exact (hnew y hy).2 (hxy ▸ hx)
  · rcases List.mem_append.mp hx with hx | hx
    · exact List.mem_append_left _ (h.queued x hx)
    · exact List.mem_append_right _ hx
  · refine h.ascending.imp_of_mem fun hx hy hxy ↦ ?_
    rwa [hold _ (h.queued _ hx), hold _ (h.queued _ hy)]
  · refine List.pairwise_of_forall_mem_list fun x hx y hy ↦ ?_
    exact ⟨distance, distance, hnews x hx, hnews y hy, by omega, by omega⟩
  · obtain ⟨k, hk, hle, hge⟩ := hqueue x hx
    exact ⟨k, distance, (hold x (h.queued x hx)).trans hk, hnews y hy, hle, hge⟩
  · by_cases hx : x ∈ news
    · rw [hnews x hx, Option.some.injEq] at hk
      exact hk ▸ hdepth (List.ne_nil_of_mem hx)
    · rw [distance?_grow_of_notMem hx] at hk
      exact h.bounded x k hk
  · rcases List.mem_append.mp hx with hx | hx
    · exact h.issued x hx
    · exact (hnew x hx).1

/-- **A round keeps the exploration orderly.** -/
theorem round (hd : d.WellFormed) (h : d.Orderly depth e) : d.Orderly depth (d.round depth e) := by
  cases hq : e.queue with
  | nil => rwa [round_of_queue_eq_nil hq]
  | cons x rest =>
    obtain ⟨k, hk⟩ := h.exists_distance (hq ▸ List.mem_cons_self)
    obtain ⟨news, heq, hnodup, hnew, hlt⟩ := d.exists_round_eq_grow depth h.coherent hq hk
    rw [heq]
    refine (h.dequeue hq).grow hnodup (fun y hy ↦ ?_) hlt fun y hy ↦ ?_
    · exact ⟨hd.issued_of_mem_adjacent (hnew y hy).1, (hnew y hy).2⟩
    · -- what is left in the queue was behind `x` in it
      obtain ⟨k', l, hk', hl, hle, hge⟩ := (List.pairwise_cons.mp (hq ▸ h.ascending)).1 y hy
      rw [hk, Option.some.injEq] at hk'
      exact ⟨l, hl, by omega, by omega⟩

/-- The rounds of an exploration, counted.  An exploration is a number of rounds, and the queue is
empty after them and not before.  Each round takes a type off the queue that does not come back, so
the types that are found in the end are those that had left the queue before, and one for each
round. -/
theorem exists_rounds (hd : d.WellFormed) (h : d.Orderly depth e) :
    ∃ n, d.explore depth e = (d.round depth)^[n] e ∧ (d.explore depth e).queue = [] ∧
      (∀ m < n, ((d.round depth)^[m] e).queue ≠ []) ∧
      (d.explore depth e).order.length + e.queue.length = e.order.length + n := by
  fun_induction explore d depth e with
  | case1 e hq => exact ⟨0, rfl, hq, by simp, by simp [hq]⟩
  | case2 e hq ih =>
    obtain ⟨n, hn, hempty, hbusy, hcount⟩ := ih (h.round hd)
    refine ⟨n + 1, hn, hempty, fun m hm ↦ ?_, ?_⟩
    · cases m with
      | zero => exact hq
      | succ m => exact hbusy m (by omega)
    · obtain ⟨x, rest, hcons⟩ := List.exists_cons_of_ne_nil hq
      obtain ⟨k, hk⟩ := h.exists_distance (hcons ▸ List.mem_cons_self)
      obtain ⟨news, heq, -⟩ := d.exists_round_eq_grow depth h.coherent hcons hk
      -- a round adds as many types to the order as to the queue, and takes one off the queue
      have horder : (d.round depth e).order.length = e.order.length + news.length := by
        simp [heq, Exploration.grow]
      have hqueue : (d.round depth e).queue.length + 1 = e.queue.length + news.length := by
        simp [heq, Exploration.grow, hcons]
        omega
      omega

end Orderly

/-! ## Any number of rounds -/

theorem orderly_start (hs : ∀ s ∈ seeds, d.issued s = true) (depth : Nat) :
    d.Orderly depth (start seeds) := by
  have hstart : start seeds = Exploration.blank.grow 0 (firsts [] seeds) := by
    rw [start, foldl_discover coherent_blank]
    rfl
  rw [hstart]
  refine Orderly.blank.grow (nodup_firsts _ _) (fun y hy ↦ ?_) (by simp) (by simp [blank])
  exact ⟨hs y (mem_firsts.mp hy).1, (mem_firsts.mp hy).2⟩

/-- **Before every round, the exploration is orderly.** -/
theorem WellFormed.orderly_iterate (hd : d.WellFormed) (hs : ∀ s ∈ seeds, d.issued s = true)
    (depth n : Nat) : d.Orderly depth ((d.round depth)^[n] (start seeds)) := by
  induction n with
  | zero => exact orderly_start hs depth
  | succ n ih =>
    rw [Function.iterate_succ_apply']
    exact ih.round hd

theorem queue_iterate_eq_nil (hq : e.queue = []) (n : Nat) :
    ((d.round depth)^[n] e).queue = [] := by
  rw [Function.iterate_fixed (round_of_queue_eq_nil hq), hq]

/-- The types that the first `n` rounds take off the queue, in order. -/
def dequeued (d : Diagram) (seeds : List Nat) (depth n : Nat) : List Nat :=
  (List.range n).filterMap fun i ↦ ((d.round depth)^[i] (start seeds)).queue.head?

theorem dequeued_succ (d : Diagram) (seeds : List Nat) (depth n : Nat) :
    d.dequeued seeds depth (n + 1) =
      d.dequeued seeds depth n ++ ((d.round depth)^[n] (start seeds)).queue.head?.toList := by
  rw [dequeued, List.range_succ, List.filterMap_append, ← dequeued]
  cases hhead : ((d.round depth)^[n] (start seeds)).queue.head? <;> simp [hhead]

/-- **The types found are those taken off the queue, followed by those that are still in it.** -/
theorem WellFormed.order_iterate (hd : d.WellFormed) (hs : ∀ s ∈ seeds, d.issued s = true)
    (depth n : Nat) :
    ((d.round depth)^[n] (start seeds)).order =
      d.dequeued seeds depth n ++ ((d.round depth)^[n] (start seeds)).queue := by
  induction n with
  | zero =>
    simp only [Function.iterate_zero_apply, start, foldl_discover coherent_blank]
    simp [dequeued, blank]
  | succ n ih =>
    have h := hd.orderly_iterate hs depth n
    rw [dequeued_succ, Function.iterate_succ_apply']
    generalize (d.round depth)^[n] (start seeds) = e at ih h
    cases hq : e.queue with
    | nil => simp [round_of_queue_eq_nil hq, ih, hq]
    | cons x rest =>
      obtain ⟨k, hk⟩ := h.exists_distance (hq ▸ List.mem_cons_self)
      obtain ⟨news, heq, -⟩ := d.exists_round_eq_grow depth h.coherent hq hk
      simp [heq, Exploration.grow, ih, hq]

theorem WellFormed.nodup_dequeued (hd : d.WellFormed) (hs : ∀ s ∈ seeds, d.issued s = true)
    (depth n : Nat) : (d.dequeued seeds depth n).Nodup := by
  have hnodup := (hd.orderly_iterate hs depth n).nodup
  rw [hd.order_iterate hs] at hnodup
  exact (List.nodup_append.mp hnodup).1

/-- **There are as many rounds as types are found.**  The exploration is that number of rounds, and
the queue is empty after them and not before. -/
theorem WellFormed.explore_eq_iterate (hd : d.WellFormed) (hs : ∀ s ∈ seeds, d.issued s = true)
    (depth : Nat) :
    d.explore depth (start seeds) = (d.round depth)^[(d.within seeds depth).length] (start seeds) ∧
      ∀ n, ((d.round depth)^[n] (start seeds)).queue = [] ↔ (d.within seeds depth).length ≤ n := by
  obtain ⟨n, hn, hempty, hbusy, hcount⟩ := (orderly_start hs depth).exists_rounds hd
  have hlength : (d.within seeds depth).length = n := by
    -- nothing has left the queue at the start
    have hstart : (start seeds).order = (start seeds).queue := hd.order_iterate hs depth 0
    rw [within]
    rw [hstart] at hcount
    omega
  rw [hlength]
  refine ⟨hn, fun m ↦ ⟨fun hm ↦ Nat.le_of_not_lt fun hlt ↦ hbusy m hlt hm, fun hm ↦ ?_⟩⟩
  obtain ⟨k, rfl⟩ := Nat.exists_eq_add_of_le' hm
  rw [Function.iterate_add_apply, ← hn]
  exact queue_iterate_eq_nil hempty k

/-- The work list of an exploration is safe, and the exploration ends.  Its state before the round
with number `n` is `(d.round depth)^[n] (start seeds)`. -/
structure SafeWorklist (d : Diagram) (seeds : List Nat) (depth : Nat) : Prop where
  /-- Before every round, the keys of the table are the types in the order of discovery; these do
  not repeat, and all types in the queue are among them.  Along the queue the distances do not go
  down, and none exceeds an earlier one by more than one.  No distance exceeds the bound. -/
  orderly : ∀ n, d.Orderly depth ((d.round depth)^[n] (start seeds))
  /-- No type is taken off the queue twice. -/
  dequeued_once : ∀ n, (d.dequeued seeds depth n).Nodup
  /-- The distance of the type that a round takes off the queue is in the table; and if neighbours
  of it are looked at, the next larger distance fits a machine word. -/
  distance_known : ∀ n x, ((d.round depth)^[n] (start seeds)).queue.head? = some x →
    ∃ level, ((d.round depth)^[n] (start seeds)).distance? x = some level ∧
      (level < depth → level + 1 < UInt64.size)
  /-- Every type found is a type of the diagram. -/
  type_known : ∀ n, ∀ x ∈ ((d.round depth)^[n] (start seeds)).order,
    ∃ decl, d.decl? x = some decl
  /-- The exploration consists of as many rounds as the extracted part has types. -/
  rounds : d.explore depth (start seeds) =
    (d.round depth)^[(d.extract seeds depth).value.decls.length] (start seeds)
  /-- The queue is empty after that many rounds, and not before. -/
  empty_iff : ∀ n, ((d.round depth)^[n] (start seeds)).queue = [] ↔
    (d.extract seeds depth).value.decls.length ≤ n
  /-- There are at most as many rounds as the diagram has types. -/
  bounded : (d.extract seeds depth).value.decls.length ≤ d.decls.length

/-- **The work list is safe, and the exploration ends**, in every diagram that has a history, from
any issued seeds, which may be repeated, and at any bound that fits a machine word. -/
theorem Reachable.worklist_safe (hd : d.Reachable) (hs : ∀ s ∈ seeds, d.issued s = true)
    (hdepth : depth < UInt64.size) : d.SafeWorklist seeds depth := by
  have hwf := hd.wellFormed
  have horderly := hwf.orderly_iterate hs depth
  have hlength : (d.extract seeds depth).value.decls.length = (d.within seeds depth).length :=
    (hwf.selection_within hs depth).length_restrict
  obtain ⟨hexplore, hempty⟩ := hwf.explore_eq_iterate hs depth
  constructor
  case orderly => exact horderly
  case dequeued_once => exact hwf.nodup_dequeued hs depth
  case distance_known =>
    intro n x hx
    obtain ⟨level, hlevel⟩ := (horderly n).exists_distance (List.mem_of_head? hx)
    exact ⟨level, hlevel, fun hlt ↦ by omega⟩
  case type_known =>
    intro n x hx
    have hissued := (horderly n).issued x hx
    exact ⟨_, List.getElem?_eq_getElem (of_decide_eq_true hissued)⟩
  case rounds => rw [hlength, hexplore]
  case empty_iff =>
    intro n
    rw [hlength, hempty]
  case bounded =>
    rw [hlength, within_eq_ball]
    exact hwf.length_ball_le hs depth

theorem worklist_safe_tangle :
    let d := History.tangle.diagram
    let state := fun n ↦ (d.round 2)^[n] (start [3, 3])
    d.Reachable ∧ (∀ s ∈ [3, 3], d.issued s = true) ∧ 2 < UInt64.size ∧
    (state 0).queue = [3] ∧ (state 1).queue = [2] ∧ (state 2).queue = [0, 1] ∧
    (state 3).queue = [1] ∧ (state 4).queue = [] ∧
    d.Orderly 2 (state 2) ∧
    ((List.range 5).filterMap fun i ↦ (state i).queue.head?).Nodup ∧
    ((state 2).queue.head? = some 0 ∧
      ∃ level, (state 2).distance? 0 = some level ∧ (level < 2 → level + 1 < UInt64.size)) ∧
    ((state 3).queue = [] ↔ (d.extract [3, 3] 2).value.decls.length ≤ 3) ∧
    ((state 4).queue = [] ↔ (d.extract [3, 3] 2).value.decls.length ≤ 4) := by
  intro d state
  have hd : d.Reachable := ⟨History.tangle, rfl⟩
  have hs : ∀ s ∈ [3, 3], d.issued s = true := by decide
  have hdepth : 2 < UInt64.size := by decide
  have h : d.SafeWorklist [3, 3] 2 := hd.worklist_safe hs hdepth
  have hhead : (state 2).queue.head? = some 0 := by decide +kernel
  exact ⟨hd, hs, hdepth, by decide +kernel, by decide +kernel, by decide +kernel, by decide +kernel,
    by decide +kernel, h.orderly 2, h.dequeued_once 5, ⟨hhead, h.distance_known 2 0 hhead⟩,
    h.empty_iff 3, h.empty_iff 4⟩

end Diagram
end TypeDiagram
