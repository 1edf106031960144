import TypeDiagram.Diagram.Neighbours

/-!
# Exploring a diagram

An exploration finds the types within a number of hops of some seeds, nearest first.  It keeps

* the types found so far, in the order in which they were found,
* their distances from the seeds, in a table,
* a queue of the types whose neighbours have not been looked at yet.

A round takes the first type off the queue.  If it is nearer than the bound, its neighbours are
looked at in their order: one that is not in the table is appended to the order and to the queue
and gets a distance one larger.  The exploration ends when the queue is empty.

**Why it ends.**  A type found in a round is mentioned by a relation and was not in the table
before; so each type that joins the queue leaves the handles that relations mention and the table
does not.  The number of these mentions plus the length of the queue goes down in each round.
-/

set_option autoImplicit false

namespace TypeDiagram

/-- The state of an exploration. -/
structure Exploration where
  /-- The types found so far, in the order in which they were found. -/
  order : List Nat
  /-- The distances of the types found so far. -/
  distances : List (Nat × Nat)
  /-- The types found whose neighbours have not been looked at. -/
  queue : List Nat
deriving DecidableEq

namespace Exploration

/-- Nothing is found yet. -/
def blank : Exploration := ⟨[], [], []⟩

/-- The distance of a type that was found. -/
def distance? (e : Exploration) (handle : Nat) : Option Nat := e.distances.lookup handle

/-- Was this type found? -/
def found (e : Exploration) (handle : Nat) : Bool := (e.distance? handle).isSome

/-- Note that a type is at a distance, unless it was found before. -/
def discover (distance : Nat) (e : Exploration) (handle : Nat) : Exploration :=
  if e.found handle then e
  else ⟨e.order ++ [handle], (handle, distance) :: e.distances, e.queue ++ [handle]⟩

/-- The seeds are found at distance zero. -/
def start (seeds : List Nat) : Exploration := seeds.foldl (discover 0) blank

/-- How many of the mentions are of types that were not found. -/
def unfound (e : Exploration) (mentions : List Nat) : Nat :=
  mentions.countP fun handle ↦ !e.found handle

/-! ## What a discovery changes -/

theorem found_discover {e : Exploration} {distance handle h : Nat} :
    (e.discover distance handle).found h = (e.found h || h == handle) := by
  unfold discover
  by_cases hf : e.found handle = true
  · rw [if_pos hf]
    by_cases hh : h = handle
    · simp [hh, hf]
    · simp [hh]
  · rw [if_neg hf]
    by_cases hh : h = handle
    · simp [found, distance?, hh]
    · simp [found, distance?, List.lookup_cons, beq_false_of_ne hh]

/-- A discovery takes the mentions of one type out of the unfound ones. -/
theorem unfound_discover {e : Exploration} {handle : Nat} (hf : e.found handle = false)
    (distance : Nat) (mentions : List Nat) :
    (e.discover distance handle).unfound mentions + mentions.count handle = e.unfound mentions := by
  unfold unfound
  induction mentions with
  | nil => rfl
  | cons h rest ih =>
    rw [List.countP_cons, List.countP_cons, List.count_cons, ← ih, found_discover]
    by_cases hh : h = handle
    · subst hh
      simp only [hf, beq_self_eq_true, Bool.or_true, Bool.not_true, Bool.not_false, if_true]
      simp only [Bool.false_eq_true, if_false]
      omega
    · rw [beq_false_of_ne hh]
      simp only [Bool.or_false, Bool.false_eq_true, if_false]
      omega

/-- A discovery trades a mention for a place in the queue. -/
theorem unfound_discover_le {e : Exploration} {distance handle : Nat} {mentions : List Nat}
    (h : handle ∈ mentions) :
    (e.discover distance handle).unfound mentions + (e.discover distance handle).queue.length ≤
      e.unfound mentions + e.queue.length := by
  by_cases hf : e.found handle = true
  · exact Nat.le_of_eq (by rw [discover, if_pos hf])
  · have hf' : e.found handle = false := by simpa using hf
    have hcount : 0 < mentions.count handle := List.count_pos_iff.mpr h
    have hunfound := unfound_discover hf' distance mentions
    have hqueue : (e.discover distance handle).queue.length = e.queue.length + 1 := by
      rw [discover, if_neg hf, List.length_append, List.length_singleton]
    omega

/-- Several discoveries in turn trade mentions for places in the queue. -/
theorem unfound_foldl_discover_le {distance : Nat} {mentions : List Nat} (handles : List Nat)
    (h : ∀ handle ∈ handles, handle ∈ mentions) (e : Exploration) :
    (handles.foldl (discover distance) e).unfound mentions +
        (handles.foldl (discover distance) e).queue.length ≤
      e.unfound mentions + e.queue.length := by
  induction handles generalizing e with
  | nil => exact Nat.le_refl _
  | cons handle rest ih =>
    rw [List.foldl_cons]
    exact Nat.le_trans (ih (fun x hx ↦ h x (List.mem_cons_of_mem _ hx)) _)
      (unfound_discover_le (h handle List.mem_cons_self))

end Exploration

/-! ## The exploration -/

namespace Diagram

open Exploration

/-- Look at the neighbours of a type, if it is nearer than the bound. -/
def expand (d : Diagram) (depth handle : Nat) (e : Exploration) : Exploration :=
  match e.distance? handle with
  | none => e
  | some distance =>
    if distance < depth then (d.adjacent handle).foldl (discover (distance + 1)) e else e

/-- Looking at the neighbours of a type trades mentions for places in the queue. -/
theorem unfound_expand_le (d : Diagram) (depth handle : Nat) (e : Exploration) :
    (d.expand depth handle e).unfound d.endpoints + (d.expand depth handle e).queue.length ≤
      e.unfound d.endpoints + e.queue.length := by
  unfold expand
  split
  · exact Nat.le_refl _
  · split
    · exact unfound_foldl_discover_le _ (fun _ h ↦ mem_endpoints_of_mem_adjacent h) e
    · exact Nat.le_refl _

/-- One round: the first type leaves the queue, and its neighbours are looked at. -/
def round (d : Diagram) (depth : Nat) (e : Exploration) : Exploration :=
  match e.queue with
  | [] => e
  | handle :: rest => d.expand depth handle { e with queue := rest }

/-- **Each round comes closer to the end**: of the unfound mentions and the places in the queue
there is at least one fewer after it. -/
theorem unfound_round_lt (d : Diagram) (depth : Nat) {e : Exploration} (h : e.queue ≠ []) :
    (d.round depth e).unfound d.endpoints + (d.round depth e).queue.length <
      e.unfound d.endpoints + e.queue.length := by
  unfold round
  split
  · next hq => exact absurd hq h
  · next handle rest hq =>
    have hle := d.unfound_expand_le depth handle { e with queue := rest }
    have hsame : Exploration.unfound { e with queue := rest } d.endpoints =
        e.unfound d.endpoints := rfl
    rw [hsame] at hle
    rw [hq, List.length_cons]
    exact Nat.lt_succ_of_le hle

/-- Rounds follow each other until the queue is empty. -/
def explore (d : Diagram) (depth : Nat) (e : Exploration) : Exploration :=
  if e.queue = [] then e else d.explore depth (d.round depth e)
termination_by e.unfound d.endpoints + e.queue.length
decreasing_by exact d.unfound_round_lt depth ‹_›

/-- The types within `depth` hops of the seeds, in the order in which they are found. -/
def within (d : Diagram) (seeds : List Nat) (depth : Nat) : List Nat :=
  (d.explore depth (start seeds)).order

end Diagram
end TypeDiagram
