import TypeDiagram.Proofs.History
import TypeDiagram.Proofs.Walks

/-!
# The order of discovery

The types of an extraction stand in the order in which the exploration found them.  The exploration
takes types off a queue one by one, so at most times the queue holds types of two different
distances, and a type is marked as found when it enters the queue and not when it leaves it.  This
file gives the order by a rule that knows nothing of a queue, and compares it with the distances.

## What is here

* `Diagram.Levels` — the rule.  Level zero is the list of seeds.  The next level lists the
  neighbours of the types of the last one, and keeps what is in no level yet, each type where it
  stands first.  The rule leaves no choice: it fixes every level, with its order.
* `Diagram.levels_sphere` — the layers of `TypeDiagram.Proofs.Layers` obey the rule.
* `Diagram.AtDistance` — the length of the shortest walk from a seed to a type, and
  `Diagram.mem_sphere_iff` — layer `k` consists of the types at distance `k`.
* `Diagram.pairwise_distance_ball` — the distance never goes down along the order of discovery.

The order within a level is worth a statement because it can be seen: the handle of a type in the
extraction is its place in the order of discovery.  The rule refers to `Diagram.adjacent`, and so to
the order in which the relations of a type are walked.  It does not refer to distances.  That a
level consists of the types at one distance is a theorem, and a type to which walks of different
lengths lead belongs to the level of the shortest one.

Seeds must not repeat for this.  A list with repetitions can be explored as well, and then level
zero is that list without its repetitions.
-/

set_option autoImplicit false

namespace TypeDiagram

/-- The first occurrences are what is left when the known handles and all repetitions are erased. -/
theorem firsts_eq_eraseDups (known handles : List Nat) :
    firsts known handles = (handles.filter fun x ↦ x ∉ known).eraseDups := by
  induction handles generalizing known with
  | nil => rfl
  | cons h rest ih =>
    rw [firsts]
    split
    · next hk => rw [ih, List.filter_cons_of_neg (by simpa using hk)]
    · next hk =>
      rw [ih, List.filter_cons_of_pos (by simpa using hk), List.eraseDups_cons, List.filter_filter]
      -- to erase `h` later on is to count it among the known handles
      refine congrArg (fun l ↦ h :: List.eraseDups l) (List.filter_congr fun x _ ↦ ?_)
      rw [Bool.eq_iff_iff]
      simp [and_comm]

namespace Diagram

/-! ## Levels -/

/-- The levels of a search from the seeds. -/
structure Levels (d : Diagram) (seeds : List Nat) (level : Nat → List Nat) : Prop where
  /-- Level zero is the list of seeds. -/
  zero : level 0 = seeds
  /-- The next level lists the neighbours of the last one, in the order of the last one.  Of each
  type that is in no level yet it keeps the first occurrence, and it keeps nothing else. -/
  succ : ∀ k, level (k + 1) =
    (((level k).flatMap d.adjacent).filter
      fun x ↦ x ∉ (List.range (k + 1)).flatMap level).eraseDups

variable {d : Diagram} {seeds : List Nat}

theorem ball_eq_flatMap_sphere (d : Diagram) (seeds : List Nat) (k : Nat) :
    d.ball seeds k = (List.range (k + 1)).flatMap (d.sphere seeds) := by
  induction k with
  | zero => simp [ball, sphere, layers]
  | succ k ih => rw [ball_succ, List.range_succ, List.flatMap_append, List.flatMap_singleton, ← ih]

theorem levels_sphere (hn : seeds.Nodup) : d.Levels seeds (d.sphere seeds) := by
  refine ⟨firsts_eq_self hn fun x _ ↦ List.not_mem_nil, fun k ↦ ?_⟩
  rw [sphere_succ, firsts_eq_eraseDups, ball_eq_flatMap_sphere]

/-! ## Distances -/

/-- A shortest walk from the seeds to the type goes along `k` relations. -/
def AtDistance (d : Diagram) (seeds : List Nat) (k x : Nat) : Prop :=
  (∃ s ∈ seeds, d.Walk s k x) ∧ ∀ n < k, ∀ s ∈ seeds, ¬d.Walk s n x

theorem AtDistance.unique {m n x : Nat} (hm : d.AtDistance seeds m x)
    (hn : d.AtDistance seeds n x) : m = n := by
  obtain ⟨⟨s, hs, hsm⟩, hmin⟩ := hm
  obtain ⟨⟨t, ht, htn⟩, hnin⟩ := hn
  rcases Nat.lt_trichotomy m n with h | h | h
  · exact absurd hsm (hnin m h s hs)
  · exact h
  · exact absurd htn (hmin n h t ht)

/-- A layer consists of what is in its ball and in no smaller one. -/
theorem mem_sphere_iff_mem_ball {k x : Nat} :
    x ∈ d.sphere seeds k ↔ x ∈ d.ball seeds k ∧ ∀ j < k, x ∉ d.ball seeds j := by
  cases k with
  | zero => exact ⟨fun hx ↦ ⟨hx, by simp⟩, fun hx ↦ hx.1⟩
  | succ k =>
    refine ⟨fun hx ↦ ⟨sphere_subset_ball (k + 1) hx, fun j hj hmem ↦ ?_⟩, fun ⟨hx, hout⟩ ↦ ?_⟩
    · rw [sphere_succ] at hx
      exact (mem_firsts.mp hx).2 ((ball_isPrefix (Nat.le_of_lt_succ hj)).subset hmem)
    · rw [ball_succ, List.mem_append] at hx
      exact hx.resolve_left (hout k (Nat.lt_succ_self k))

/-- **A layer consists of the types at its distance.** -/
theorem mem_sphere_iff {k x : Nat} : x ∈ d.sphere seeds k ↔ d.AtDistance seeds k x := by
  rw [mem_sphere_iff_mem_ball]
  simp only [mem_ball_iff]
  refine ⟨?_, ?_⟩
  · rintro ⟨⟨s, hs, n, hn, hwalk⟩, hout⟩
    have hk : n = k := by
      refine Nat.le_antisymm hn (Nat.le_of_not_lt fun hlt ↦ ?_)
      exact hout n hlt ⟨s, hs, n, Nat.le_refl n, hwalk⟩
    subst hk
    exact ⟨⟨s, hs, hwalk⟩, fun m hm t ht hmt ↦ hout m hm ⟨t, ht, m, Nat.le_refl m, hmt⟩⟩
  · rintro ⟨⟨s, hs, hwalk⟩, hmin⟩
    refine ⟨⟨s, hs, k, Nat.le_refl k, hwalk⟩, ?_⟩
    rintro j hj ⟨t, ht, n, hn, hnt⟩
    exact hmin n (Nat.lt_of_le_of_lt hn hj) t ht hnt

/-- **The distance never goes down along the order of discovery.** -/
theorem pairwise_distance_ball (d : Diagram) (seeds : List Nat) (k : Nat) :
    (d.ball seeds k).Pairwise fun x y ↦
      ∀ m n, d.AtDistance seeds m x → d.AtDistance seeds n y → m ≤ n := by
  have hle : ∀ i j, i ≤ j → ∀ x ∈ d.sphere seeds i, ∀ y ∈ d.sphere seeds j,
      ∀ m n, d.AtDistance seeds m x → d.AtDistance seeds n y → m ≤ n := by
    intro i j hij x hx y hy m n hm hn
    rw [hm.unique (mem_sphere_iff.mp hx), hn.unique (mem_sphere_iff.mp hy)]
    exact hij
  rw [ball_eq_flatMap_sphere, List.pairwise_flatMap]
  refine ⟨fun i _ ↦ List.pairwise_of_forall_mem_list fun x hx y hy ↦ ?_, ?_⟩
  · exact hle i i (Nat.le_refl i) x hx y hy
  · exact List.pairwise_lt_range.imp fun hij ↦ hle _ _ (Nat.le_of_lt hij)

/-! ## Extractions stand in levels -/

/-- The types of the part are those of the levels up to `depth`, one level after the other, and the
levels tell the distances. -/
structure InLevels (part d : Diagram) (seeds : List Nat) (depth : Nat) (level : Nat → List Nat) :
    Prop where
  /-- The levels obey the rule. -/
  levels : d.Levels seeds level
  /-- The part consists of the types in these levels, in this order, and the relations among
  them. -/
  restrict : part = d.restrict ((List.range (depth + 1)).flatMap level)
  /-- The types of the part are those of the levels, one by one. -/
  decls : part.decls.map some = ((List.range (depth + 1)).flatMap level).map d.decl?
  /-- A level consists of the types at its distance from the seeds. -/
  distance : ∀ k x, x ∈ level k ↔ d.AtDistance seeds k x
  /-- The distance never goes down. -/
  ascending : ((List.range (depth + 1)).flatMap level).Pairwise fun x y ↦
    ∀ m n, d.AtDistance seeds m x → d.AtDistance seeds n y → m ≤ n

theorem WellFormed.inLevels_extract (hd : d.WellFormed) (hn : seeds.Nodup)
    (hs : ∀ s ∈ seeds, d.issued s = true) (depth : Nat) :
    (d.extract seeds depth).value.InLevels d seeds depth (d.sphere seeds) := by
  have horder : d.within seeds depth = (List.range (depth + 1)).flatMap (d.sphere seeds) := by
    rw [within_eq_ball, ball_eq_flatMap_sphere]
  refine ⟨levels_sphere hn, ?_, ?_, fun k x ↦ mem_sphere_iff, ?_⟩
  · rw [← horder]
    rfl
  · rw [← horder]
    exact (hd.selection_within hs depth).decls_restrict
  · rw [← ball_eq_flatMap_sphere]
    exact d.pairwise_distance_ball seeds depth

/-- **Types are discovered level by level.**  Extract a part around seeds that are issued and do not
repeat, be it a single handle or all handles with a name, in their order.  The types of the part are
those of the levels up to the bound, one level after the other.  A level consists of the types whose
distance from the seeds is its number, and so the distance never goes down along the types of the
part. -/
theorem Reachable.discovery_by_levels (hd : d.Reachable) :
    (∀ seeds depth, seeds.Nodup → (∀ s ∈ seeds, d.issued s = true) →
      ∃ level, (d.extract seeds depth).value.InLevels d seeds depth level) ∧
    (∀ seed depth, d.issued seed = true →
      ∃ part, d.neighbourhood seed depth = .ok part ∧
        ∃ level, part.value.InLevels d [seed] depth level) ∧
    (∀ name depth, (∃ x decl, d.decl? x = some decl ∧ decl.name = name) →
      ∃ part, d.focus name depth = .ok part ∧
        ∃ level, part.value.InLevels d (d.handlesNamed name) depth level) ∧
    ∀ name, (d.handlesNamed name).Pairwise (· < ·) ∧
      ∀ x, x ∈ d.handlesNamed name ↔ ∃ decl, d.decl? x = some decl ∧ decl.name = name := by
  have hextract : ∀ seeds depth, seeds.Nodup → (∀ s ∈ seeds, d.issued s = true) →
      ∃ level, (d.extract seeds depth).value.InLevels d seeds depth level :=
    fun seeds depth hn hs ↦ ⟨_, hd.wellFormed.inLevels_extract hn hs depth⟩
  obtain ⟨hneighbourhood, hfocus⟩ := forall_extraction (d := d)
    (P := fun seeds depth part ↦ ∃ level, part.InLevels d seeds depth level) hextract
  exact ⟨hextract, hneighbourhood, hfocus,
    fun name ↦ ⟨d.pairwise_handlesNamed name, fun x ↦ mem_handlesNamed⟩⟩

theorem discovery_by_levels_tangle :
    let d := History.tangle.diagram
    ([2, 0].Nodup ∧ (∀ s ∈ [2, 0], d.issued s = true) ∧
      ∃ level, (d.extract [2, 0] 1).value.InLevels d [2, 0] 1 level) ∧
    (d.issued 1 = true ∧ ∃ part, d.neighbourhood 1 2 = .ok part ∧
      ∃ level, part.value.InLevels d [1] 2 level) ∧
    (∃ x decl, d.decl? x = some decl ∧ decl.name = "A") ∧
    ∃ part, d.focus "A" 1 = .ok part ∧
      ∃ level, part.value.InLevels d (d.handlesNamed "A") 1 level := by
  intro d
  have hseeds : ∀ s ∈ [2, 0], d.issued s = true := by decide
  have hseed : d.issued 1 = true := by decide
  have hname : ∃ x decl, d.decl? x = some decl ∧ decl.name = "A" := ⟨3, .named "A" "", rfl, rfl⟩
  obtain ⟨hextract, haround, hnamed, -⟩ := Reachable.discovery_by_levels (d := d)
    ⟨History.tangle, rfl⟩
  exact ⟨⟨by decide, hseeds, hextract [2, 0] 1 (by decide) hseeds⟩,
    ⟨hseed, haround 1 2 hseed⟩, hname, hnamed "A" 1 hname⟩

end Diagram
end TypeDiagram
