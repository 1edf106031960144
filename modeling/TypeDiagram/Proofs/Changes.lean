import TypeDiagram.Proofs.History
import Mathlib.Data.List.Induction

/-!
# Accounts of changes

Two calls change a diagram: one appends a type, the other one a relation.  They come in any order
and with any handles.  A handle that was not issued when a call was refused may be issued when the
same call is made again; and a relation that is there is not added a second time, however long ago
it was added.  This file gives the account of such a series of calls: what the caller is told each
time, and what the diagram is in the end.

## What is here

* `Change`, the two calls, and `Answer`, what the caller is told.
* `Diagram.after` and `Diagram.transcript` — the diagram at the end of a series, and the calls of
  the series with their answers.  The calls are performed as in a `History`.
* `Diagram.addRelation_eq_ite` — when a relation is refused, and what the refusal names.
* `Change.decls_perform` and `Change.relations_perform` — what a single call adds.
* `Diagram.decls_after` and `Diagram.relations_after` — **what a series adds**.  Both are proved by
  taking the last call off the series and not the first one: whether a relation is new depends on
  all relations that were granted before it.
* `Diagram.Accounted` — the account itself, clause by clause.

## What the answers depend on

A call is answered from the diagram at that moment, so the account needs the diagram after every
initial part of the series.  Appending a type never takes a handle back, and appending a relation
never changes the types: hence a call that was granted would be granted again later, while one that
was refused may be granted later.  `Diagram.getElem?_transcript` is the one place where the answer
to a call in the middle of a series is related to the diagram before it.

The relations in the end are given by a formula over the answers and not over the calls.  There is
no circle in this, since the answers depend on numbers of types, and `Diagram.decls_after` counts
these without any regard to relations.
-/

set_option autoImplicit false

namespace TypeDiagram

/-! ## Calls and answers -/

/-- A call that changes a diagram.  Handles are any numbers, issued or not. -/
inductive Change where
  | addDecl (decl : Decl)
  | addRelation (r : Relation)
deriving DecidableEq

/-- What the caller of a change is told. -/
inductive Answer where
  /-- A type was added, and this is its handle. -/
  | handle (x : Nat)
  /-- The relation is there now, whether it was there before or not. -/
  | granted
  /-- Nothing was done, for this reason. -/
  | refused (error : Error)
deriving DecidableEq

namespace Change

/-- The change as a call in a history. -/
def call : Change → Call
  | .addDecl decl => .addDecl decl
  | .addRelation r => .addRelation r

/-- What the caller is told when the change is made on the diagram `d`. -/
def answer (d : Diagram) : Change → Answer
  | .addDecl decl => .handle (d.addDecl decl).1
  | .addRelation r =>
    match d.addRelation r with
    | .ok _ => .granted
    | .error error => .refused error

/-- The type that the change adds, if it is to add one. -/
def decl? : Change → Option Decl
  | .addDecl decl => some decl
  | .addRelation _ => none

/-- The relation that was asked for and granted, if this is what happened. -/
def granted? : Change × Answer → Option Relation
  | (.addRelation r, .granted) => some r
  | _ => none

end Change

namespace Diagram

/-- The diagram after a series of changes. -/
def after (d : Diagram) (changes : List Change) : Diagram :=
  (changes.map Change.call).foldl Call.perform d

/-- The changes of a series with their answers. -/
def transcript (d : Diagram) : List Change → List (Change × Answer)
  | [] => []
  | change :: rest => (change, change.answer d) :: (change.call.perform d).transcript rest

/-- The relations that a series asks for and that are granted, once for each call. -/
def granted (d : Diagram) (changes : List Change) : List Relation :=
  (d.transcript changes).filterMap Change.granted?

variable {d : Diagram}

theorem after_append (d : Diagram) (before after : List Change) :
    d.after (before ++ after) = (d.after before).after after := by
  simp [Diagram.after]

theorem after_concat (d : Diagram) (changes : List Change) (change : Change) :
    d.after (changes ++ [change]) = change.call.perform (d.after changes) :=
  d.after_append changes [change]

theorem transcript_append (d : Diagram) (before after : List Change) :
    d.transcript (before ++ after) = d.transcript before ++ (d.after before).transcript after := by
  induction before generalizing d with
  | nil => rfl
  | cons change rest ih => simp [transcript, ih, Diagram.after]

theorem length_transcript (d : Diagram) (changes : List Change) :
    (d.transcript changes).length = changes.length := by
  induction changes generalizing d with
  | nil => rfl
  | cons change rest ih => simp [transcript, ih]

/-- The answer to a call of the series depends on the diagram at that moment. -/
theorem getElem?_transcript (d : Diagram) (before : List Change) (change : Change)
    (after : List Change) :
    (d.transcript (before ++ change :: after))[before.length]? =
      some (change, change.answer (d.after before)) := by
  rw [transcript_append, ← d.length_transcript before, List.getElem?_append_right (Nat.le_refl _),
    Nat.sub_self]
  rfl

theorem granted_concat (d : Diagram) (changes : List Change) (change : Change) :
    d.granted (changes ++ [change]) =
      d.granted changes ++ (Change.granted? (change, change.answer (d.after changes))).toList := by
  rw [granted, transcript_append, List.filterMap_append]
  rfl

/-- Changes are calls of a history, so they lead from one diagram with a history to another. -/
theorem Reachable.after (hd : d.Reachable) (changes : List Change) :
    (d.after changes).Reachable := by
  obtain ⟨h, rfl⟩ := hd
  exact ⟨⟨h.origin, h.calls ++ changes.map Change.call⟩, List.foldl_append⟩

/-! ## A single change -/

/-- **When a relation is refused.**  The source is looked at first: the refusal names it if it is
not issued, and otherwise the target.  A relation that is not refused is there afterwards. -/
theorem addRelation_eq_ite (d : Diagram) (r : Relation) :
    d.addRelation r =
      if d.decls.length ≤ r.source then .error (.unissued r.source)
      else if d.decls.length ≤ r.target then .error (.unissued r.target)
      else .ok (if r ∈ d.relations then d else { d with relations := d.relations ++ [r] }) := by
  by_cases hs : d.decls.length ≤ r.source
  · rw [addRelation, check_of_not_issued (by simpa [issued] using hs), if_pos hs]
    rfl
  · have hs' : d.issued r.source = true := by simpa [issued] using hs
    rw [if_neg hs]
    by_cases ht : d.decls.length ≤ r.target
    · rw [addRelation, check_eq_ok_iff.mpr hs', check_of_not_issued (by simpa [issued] using ht),
        if_pos ht]
      rfl
    · rw [if_neg ht]
      exact addRelation_eq_ok_iff.mpr ⟨hs', by simpa [issued] using ht, rfl⟩

end Diagram

namespace Change

open Diagram

theorem answer_addRelation (d : Diagram) (r : Relation) :
    (addRelation r).answer d =
      if d.decls.length ≤ r.source then .refused (.unissued r.source)
      else if d.decls.length ≤ r.target then .refused (.unissued r.target)
      else .granted := by
  rw [answer, addRelation_eq_ite]
  split_ifs <;> rfl

/-- A change that is refused leaves the diagram as it is. -/
theorem perform_of_refused {d : Diagram} {change : Change} {error : Error}
    (h : change.answer d = .refused error) : change.call.perform d = d := by
  cases change with
  | addDecl decl => exact nomatch h
  | addRelation r =>
    rw [answer] at h
    split at h
    · exact nomatch h
    · next herror => rw [call, Call.perform, Call.outcome, herror]

/-- **The types that a change adds.** -/
theorem decls_perform (d : Diagram) (change : Change) :
    (change.call.perform d).decls = d.decls ++ change.decl?.toList := by
  cases change with
  | addDecl decl => rfl
  | addRelation r =>
    rw [call, Call.perform, Call.outcome, addRelation_eq_ite, decl?, Option.toList_none,
      List.append_nil]
    split_ifs <;> rfl

/-- **The relations that a change adds**: the one that was granted, if it is new. -/
theorem relations_perform (d : Diagram) (change : Change) :
    (change.call.perform d).relations =
      d.relations ++
        (granted? (change, change.answer d)).toList.filter fun r ↦ r ∉ d.relations := by
  cases change with
  | addDecl decl => exact (List.append_nil _).symm
  | addRelation r =>
    rw [answer_addRelation, call, Call.perform, Call.outcome, addRelation_eq_ite]
    split_ifs with hs ht hr <;> simp [granted?, *]

end Change

/-! ## A series of changes -/

namespace Diagram

variable {d : Diagram}

/-- **The types after a series**: those that were there, and then the added ones. -/
theorem decls_after (d : Diagram) (changes : List Change) :
    (d.after changes).decls = d.decls ++ changes.filterMap Change.decl? := by
  induction changes using List.reverseRecOn with
  | nil => simp [after]
  | append_singleton changes change ih =>
    rw [after_concat, change.decls_perform, ih, List.filterMap_append, List.append_assoc]
    cases h : change.decl? <;> simp [h]

/-- **The relations after a series**: those that were there, and then the granted ones that were
not, each where it was granted first. -/
theorem relations_after (d : Diagram) (changes : List Change) :
    (d.after changes).relations =
      d.relations ++ ((d.granted changes).filter fun r ↦ r ∉ d.relations).eraseDups := by
  induction changes using List.reverseRecOn with
  | nil => simp [after, granted, transcript]
  | append_singleton changes change ih =>
    rw [after_concat, change.relations_perform, ih, granted_concat]
    cases Change.granted? (change, change.answer (d.after changes)) with
    | none => simp
    | some r =>
      -- the last relation is new if it was neither there before the series nor granted in it
      by_cases hold : r ∈ d.relations
      · simp [hold]
      · by_cases hgranted : r ∈ d.granted changes
        · simp [hold, hgranted, List.eraseDups_append, List.removeAll]
        · simp [hold, hgranted, List.eraseDups_append, List.removeAll, List.eraseDups_cons]

/-- A type that a series adds stands under the handle that the caller was told, to the end. -/
theorem decl?_after_addDecl (d : Diagram) (before : List Change) (decl : Decl)
    (after : List Change) :
    (d.after (before ++ .addDecl decl :: after)).decl? (d.after before).decls.length =
      some decl := by
  rw [decl?, after_append, decls_after, List.getElem?_append_right (Nat.le_refl _), Nat.sub_self]
  rfl

/-- A handle that was issued before a series keeps its type. -/
theorem decl?_after {x : Nat} {decl : Decl} (hx : d.decl? x = some decl) (changes : List Change) :
    (d.after changes).decl? x = some decl := by
  have hlt : x < d.decls.length := (List.getElem?_eq_some_iff.mp hx).1
  rw [decl?, decls_after, List.getElem?_append_left hlt]
  exact hx

/-- The account of all series of changes of a diagram: what the caller is told each time, and what
the diagram is in the end. -/
structure Accounted (d : Diagram) : Prop where
  /-- A call for a relation is refused exactly when one of its handles is not below the number of
  types at that moment.  The refusal names the source if that is the one, otherwise the target. -/
  answer_relation : ∀ before r after,
    (d.transcript (before ++ .addRelation r :: after))[before.length]? =
      some (.addRelation r,
        if (d.after before).decls.length ≤ r.source then
          .refused (.typeNotFound ("#" ++ toString r.source))
        else if (d.after before).decls.length ≤ r.target then
          .refused (.typeNotFound ("#" ++ toString r.target))
        else .granted)
  /-- A call that is refused leaves the diagram as it was. -/
  refused_unchanged : ∀ before r after error,
    (d.transcript (before ++ .addRelation r :: after))[before.length]? =
        some (.addRelation r, .refused error) →
      d.after (before ++ [.addRelation r]) = d.after before
  /-- A call for a type is told the position of the type. -/
  answer_decl : ∀ before decl after,
    (d.transcript (before ++ .addDecl decl :: after))[before.length]? =
      some (.addDecl decl, .handle (d.after before).decls.length)
  /-- The type stays at this position to the end. -/
  decl_stays : ∀ before decl after,
    (d.after (before ++ .addDecl decl :: after)).decl? (d.after before).decls.length = some decl
  /-- The types are the old ones, followed by the added ones in the order of the calls. -/
  decls : ∀ changes, (d.after changes).decls = d.decls ++ changes.filterMap Change.decl?
  /-- The relations are the old ones, followed by the granted ones that were not among them, each
  where it was granted first. -/
  relations : ∀ changes, (d.after changes).relations =
    d.relations ++ ((d.granted changes).filter fun r ↦ r ∉ d.relations).eraseDups
  /-- No relation stands twice. -/
  nodup : ∀ changes, (d.after changes).relations.Nodup
  /-- No handle changes its meaning. -/
  handles_keep : ∀ changes x decl,
    d.decl? x = some decl → (d.after changes).decl? x = some decl

/-- **Every series of changes is accounted for**, on every diagram that has a history: any number of
calls that add types and relations, in any order and with any handles. -/
theorem Reachable.changes_accounted (hd : d.Reachable) : d.Accounted := by
  constructor
  case answer_relation =>
    intro before r after
    rw [getElem?_transcript, Change.answer_addRelation]
    rfl
  case refused_unchanged =>
    intro before r after error herror
    rw [getElem?_transcript, Option.some_inj, Prod.mk.injEq] at herror
    rw [after_concat, Change.perform_of_refused herror.2]
  case answer_decl =>
    intro before decl after
    exact d.getElem?_transcript before (.addDecl decl) after
  case decl_stays => exact d.decl?_after_addDecl
  case decls => exact d.decls_after
  case relations => exact d.relations_after
  case nodup => exact fun changes ↦ (hd.after changes).wellFormed.nodup
  case handles_keep => exact fun changes x decl hx ↦ decl?_after hx changes

theorem changes_accounted_tangle :
    let d := History.tangle.diagram
    let early : Relation := ⟨4, 0, .encapsulates⟩
    let changes : List Change :=
      [.addRelation early, .addDecl (.named "D" ""), .addRelation ⟨0, 9, .encapsulates⟩,
        .addRelation early, .addRelation ⟨0, 1, .encapsulates⟩, .addRelation early]
    d.Reachable ∧
    ((d.transcript changes)[0]? = some (.addRelation early, .refused (.typeNotFound "#4")) ∧
      d.after [.addRelation early] = d) ∧
    (d.transcript changes).map Prod.snd =
      [.refused (.typeNotFound "#4"), .handle 4, .refused (.typeNotFound "#9"), .granted, .granted,
        .granted] ∧
    (d.after changes).relations = d.relations ++ [early] ∧ (d.after changes).relations.Nodup ∧
    d.decl? 3 = some (.named "A" "") ∧ (d.after changes).decl? 3 = some (.named "A" "") := by
  intro d early changes
  have hd : d.Reachable := ⟨History.tangle, rfl⟩
  have hrefused : (d.transcript changes)[0]? =
      some (.addRelation early, .refused (.typeNotFound "#4")) := by decide +kernel
  have hdecl : d.decl? 3 = some (.named "A" "") := by decide +kernel
  have hnew : ((d.granted changes).filter fun r ↦ r ∉ d.relations).eraseDups = [early] := by
    decide +kernel
  have h : d.Accounted := hd.changes_accounted
  exact ⟨hd, ⟨hrefused, h.refused_unchanged [] early changes.tail _ hrefused⟩, by decide +kernel,
    hnew ▸ h.relations changes, h.nodup changes, hdecl, h.handles_keep changes 3 _ hdecl⟩

end Diagram
end TypeDiagram
