import TypeDiagram.Proofs.Layers

/-!
# Walks

A walk goes from type to type along the relations of a diagram, and it may follow each of them
forwards or backwards.  Types are *near* each other when a short walk joins them; this is what an
exploration is meant to find out, said without queue, table or order.

`Diagram.mem_ball_iff` is the link: the ball around some seeds consists of the types that are near
one of the seeds.  Both halves of it come from `Diagram.mem_ball_succ`, since a walk grows at its
end in the way a ball grows at its rim.  `Diagram.mem_within_iff` says the same of what an
exploration finds.

Walks can be joined, cut and walked back (`Diagram.walk_add_iff`, `Diagram.Walk.reverse`), and a
bound on their length can be cut along with them (`Diagram.near_add_iff`).

The length of a walk is the number of its steps, and a walk may take a relation twice or come back
to a type.  Nothing would be gained by forbidding this: where a walk leads within a bound, one
without repetitions leads within the same bound.
-/

set_option autoImplicit false

namespace TypeDiagram
namespace Diagram

/-- `d.Walk a n b` says that a walk along `n` relations leads from `a` to `b`. -/
inductive Walk (d : Diagram) (a : Nat) : Nat → Nat → Prop
  /-- The walk that stays where it is. -/
  | stay : Walk d a 0 a
  /-- Go on along a relation. -/
  | forward {n : Nat} {r : Relation} (h : Walk d a n r.source) (hr : r ∈ d.relations) :
      Walk d a (n + 1) r.target
  /-- Go on against a relation. -/
  | backward {n : Nat} {r : Relation} (h : Walk d a n r.target) (hr : r ∈ d.relations) :
      Walk d a (n + 1) r.source

/-- A walk along at most `depth` relations joins the two types. -/
def Near (d : Diagram) (depth a b : Nat) : Prop := ∃ n, n ≤ depth ∧ d.Walk a n b

variable {d : Diagram} {a b c : Nat}

theorem walk_zero_iff : d.Walk a 0 b ↔ b = a := by
  refine ⟨?_, ?_⟩
  · intro h
    cases h
    rfl
  · rintro rfl
    exact .stay

theorem walk_succ_iff {n : Nat} : d.Walk a (n + 1) c ↔ ∃ b, d.Walk a n b ∧ c ∈ d.adjacent b := by
  refine ⟨?_, ?_⟩
  · intro h
    cases h with
    | forward h hr => exact ⟨_, h, mem_adjacent.mpr ⟨_, hr, .inl ⟨rfl, rfl⟩⟩⟩
    | backward h hr => exact ⟨_, h, mem_adjacent.mpr ⟨_, hr, .inr ⟨rfl, rfl⟩⟩⟩
  · rintro ⟨b, h, hc⟩
    obtain ⟨r, hr, ⟨rfl, rfl⟩ | ⟨rfl, rfl⟩⟩ := mem_adjacent.mp hc
    · exact h.forward hr
    · exact h.backward hr

/-- Walks that meet make a longer walk. -/
theorem Walk.append {m n : Nat} (hab : d.Walk a m b) (hbc : d.Walk b n c) : d.Walk a (m + n) c := by
  induction hbc with
  | stay => exact hab
  | forward _ hr ih => exact ih.forward hr
  | backward _ hr ih => exact ih.backward hr

/-- A walk can be cut after any number of relations. -/
theorem walk_add_iff {m n : Nat} : d.Walk a (m + n) c ↔ ∃ b, d.Walk a m b ∧ d.Walk b n c := by
  refine ⟨fun h ↦ ?_, fun ⟨b, hab, hbc⟩ ↦ hab.append hbc⟩
  induction n generalizing c with
  | zero => exact ⟨c, h, .stay⟩
  | succ n ih =>
    obtain ⟨y, hy, hyc⟩ := walk_succ_iff.mp h
    obtain ⟨b, hab, hby⟩ := ih hy
    exact ⟨b, hab, walk_succ_iff.mpr ⟨y, hby, hyc⟩⟩

/-- A walk can be walked back. -/
theorem Walk.reverse {n : Nat} (h : d.Walk a n b) : d.Walk b n a := by
  induction h with
  | stay => exact .stay
  | @forward n r _ hr ih =>
    have hstep : d.Walk r.target 1 r.source := Walk.stay.backward hr
    rw [Nat.add_comm]
    exact hstep.append ih
  | @backward n r _ hr ih =>
    have hstep : d.Walk r.source 1 r.target := Walk.stay.forward hr
    rw [Nat.add_comm]
    exact hstep.append ih

theorem near_zero_iff : d.Near 0 a b ↔ b = a := by
  refine ⟨fun ⟨n, hn, h⟩ ↦ ?_, fun h ↦ ⟨0, Nat.le_refl 0, walk_zero_iff.mpr h⟩⟩
  rw [Nat.le_zero.mp hn] at h
  exact walk_zero_iff.mp h

/-- What is near at a bound is near at the next bound, and so are its neighbours. -/
theorem near_succ_iff {depth : Nat} :
    d.Near (depth + 1) a c ↔ d.Near depth a c ∨ ∃ b, d.Near depth a b ∧ c ∈ d.adjacent b := by
  refine ⟨?_, ?_⟩
  · rintro ⟨n, hn, h⟩
    rcases Nat.le_succ_iff.mp hn with hn | rfl
    · exact .inl ⟨n, hn, h⟩
    · obtain ⟨b, hb, hc⟩ := walk_succ_iff.mp h
      exact .inr ⟨b, ⟨depth, Nat.le_refl depth, hb⟩, hc⟩
  · rintro (⟨n, hn, h⟩ | ⟨b, ⟨n, hn, h⟩, hc⟩)
    · exact ⟨n, Nat.le_succ_of_le hn, h⟩
    · exact ⟨n + 1, Nat.succ_le_succ hn, walk_succ_iff.mpr ⟨b, h, hc⟩⟩

/-- **Bounds add up**: what is near at the bound `m + n` is near, at the bound `n`, to something
that is near at the bound `m`. -/
theorem near_add_iff {m n : Nat} : d.Near (m + n) a c ↔ ∃ b, d.Near m a b ∧ d.Near n b c := by
  refine ⟨?_, ?_⟩
  · rintro ⟨k, hk, h⟩
    -- a walk that ends before the cut is cut at its end
    have hcut : k = min k m + (k - m) := by omega
    rw [hcut] at h
    obtain ⟨b, hab, hbc⟩ := walk_add_iff.mp h
    exact ⟨b, ⟨min k m, by omega, hab⟩, ⟨k - m, by omega, hbc⟩⟩
  · rintro ⟨b, ⟨j, hj, hab⟩, ⟨k, hk, hbc⟩⟩
    exact ⟨j + k, by omega, hab.append hbc⟩

/-- **A ball consists of what is near its seeds.** -/
theorem mem_ball_iff {seeds : List Nat} {depth x : Nat} :
    x ∈ d.ball seeds depth ↔ ∃ s ∈ seeds, d.Near depth s x := by
  induction depth generalizing x with
  | zero =>
    rw [ball_zero, mem_firsts]
    simp only [near_zero_iff, exists_eq_right', List.not_mem_nil, not_false_eq_true, and_true]
  | succ depth ih =>
    rw [mem_ball_succ, ih]
    refine ⟨?_, ?_⟩
    · rintro (⟨s, hs, hx⟩ | ⟨y, hy, hxy⟩)
      · exact ⟨s, hs, near_succ_iff.mpr (.inl hx)⟩
      · obtain ⟨s, hs, hsy⟩ := ih.mp hy
        exact ⟨s, hs, near_succ_iff.mpr (.inr ⟨y, hsy, hxy⟩)⟩
    · rintro ⟨s, hs, hx⟩
      rcases near_succ_iff.mp hx with hx | ⟨y, hsy, hxy⟩
      · exact .inl ⟨s, hs, hx⟩
      · exact .inr ⟨y, ih.mpr ⟨s, hs, hsy⟩, hxy⟩

/-- **An exploration finds what is near its seeds.** -/
theorem mem_within_iff {seeds : List Nat} {depth x : Nat} :
    x ∈ d.within seeds depth ↔ ∃ s ∈ seeds, d.Near depth s x := by
  rw [within_eq_ball, mem_ball_iff]

end Diagram
end TypeDiagram
