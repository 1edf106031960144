import TypeDiagram.Proofs.Inference
import TypeDiagram.Proofs.Layers
import TypeDiagram.Proofs.Restriction

/-!
# Histories of diagrams

A diagram begins empty, with given types, or as the result of an inference.  After that it is
changed, copied, or left for a part of it, by any number of calls with any arguments.  No call looks
at a second diagram; an inference may be given types of other diagrams, but it sees the types alone.
So what became of a diagram is told by its origin and by a single list of calls, which goes through
all diagrams that it derives from.

## What is here

* `Diagram.WellFormed` — relations join issued handles, and none stands twice; `Diagram.LoopFree` —
  no relation leads from a type to itself.
* `Call.outcome_eq_ok` — all that a call can do to a diagram.  Whether a call keeps a property is
  read off from this list.
* `History`, and `Diagram.Reachable` for the diagrams that have one.
* `History.wellFormed` and `History.loopFree` — the two properties hold after **every** history.
* `History.Invariant` — what these two come to, clause by clause.
* `Diagram.WellFormed.reachable` — and a well-formed diagram has a history.

Extracting a part is the one case with an argument.  It copies the relations without checking
anything, and relies on the parent being well-formed: the types found are then issued and different
from each other (`Diagram.WellFormed.selection_within`), so renumbering sends relations to relations
between new handles, and never two to the same one.

## Which diagrams have a history

Calls that fail are part of a history, and so are calls with handles that were never issued or that
were issued by another diagram.  A handle is a number, and the check compares it with the number of
types and asks nothing else.  So nothing has to be assumed of the arguments of calls.

A history is a list and not a tree, although diagrams can be copied, and all copies can be used.
For the invariant of one diagram, only the calls on the way to it matter.  The condition that no
call asks for a relation from a type to itself is a condition on this way as a whole: it also
concerns calls on a diagram of which no more than a part was kept.
-/

set_option autoImplicit false

namespace TypeDiagram

/-! ## Well-formed diagrams -/

namespace Diagram

/-- The relations join issued handles, and none of them stands twice. -/
structure WellFormed (d : Diagram) : Prop where
  source_issued : ∀ r ∈ d.relations, d.issued r.source = true
  target_issued : ∀ r ∈ d.relations, d.issued r.target = true
  nodup : d.relations.Nodup

/-- No relation leads from a type to itself. -/
def LoopFree (d : Diagram) : Prop := ∀ r ∈ d.relations, r.source ≠ r.target

variable {d : Diagram}

/-- The handles, in order, are those of the types in their order. -/
theorem map_decl?_handles (d : Diagram) : d.handles.map d.decl? = d.decls.map some := by
  refine List.ext_getElem? fun i ↦ ?_
  rw [List.getElem?_map, List.getElem?_map, handles]
  rcases Nat.lt_or_ge i d.decls.length with hi | hi
  · have hdecl : d.decl? i = some d.decls[i] := List.getElem?_eq_getElem hi
    rw [List.getElem?_range hi, Option.map_some, hdecl, List.getElem?_eq_getElem hi,
      Option.map_some]
  · rw [List.getElem?_eq_none (by simpa using hi), List.getElem?_eq_none hi]
    rfl

theorem wellFormed_ofDecls (decls : List Decl) : (ofDecls decls).WellFormed :=
  ⟨fun _ hr ↦ (nomatch hr), fun _ hr ↦ (nomatch hr), List.nodup_nil⟩

theorem wellFormed_build (inference : Inference) (decls : List Decl) :
    (inference.build decls).value.WellFormed := by
  rw [inference.build_value]
  refine ⟨fun r hr ↦ ?_, fun r hr ↦ ?_, Settings.nodup_relations⟩
  · exact decide_eq_true (Settings.mem_relations_iff.mp hr).1.lt.1
  · exact decide_eq_true (Settings.mem_relations_iff.mp hr).1.lt.2

theorem loopFree_build (inference : Inference) (decls : List Decl) :
    (inference.build decls).value.LoopFree := by
  rw [inference.build_value]
  exact fun r hr ↦ (Settings.mem_relations_iff.mp hr).1.1

/-- A new type gets the next number. -/
theorem handles_addDecl (d : Diagram) (decl : Decl) :
    (d.addDecl decl).2.handles = d.handles ++ [(d.addDecl decl).1] := by
  simp only [handles, addDecl, List.length_append, List.length_singleton]
  exact List.range_succ

/-- A new type stands under its handle, and the other handles keep their types. -/
theorem decl?_addDecl (d : Diagram) (decl : Decl) (x : Nat) :
    (d.addDecl decl).2.decl? x = if x = (d.addDecl decl).1 then some decl else d.decl? x := by
  show (d.decls ++ [decl])[x]? = if x = d.decls.length then some decl else d.decls[x]?
  by_cases hx : x = d.decls.length
  · rw [if_pos hx, hx, List.getElem?_concat_length]
  · rw [if_neg hx]
    rcases Nat.lt_or_gt_of_ne hx with hlt | hgt
    · rw [List.getElem?_append_left hlt]
    · have hnew : (d.decls ++ [decl]).length ≤ x := by
        rw [List.length_append, List.length_singleton]
        omega
      rw [List.getElem?_eq_none hnew, List.getElem?_eq_none (Nat.le_of_lt hgt)]

/-- A handle stays issued when a type is added. -/
theorem issued_addDecl {x : Nat} (hx : d.issued x = true) (decl : Decl) :
    (d.addDecl decl).2.issued x = true := by
  rw [issued, decide_eq_true_eq] at hx ⊢
  have hlen : (d.addDecl decl).2.decls.length = d.decls.length + 1 := by
    rw [addDecl, List.length_append, List.length_singleton]
  omega

theorem WellFormed.addDecl (hd : d.WellFormed) (decl : Decl) : (d.addDecl decl).2.WellFormed :=
  ⟨fun r hr ↦ issued_addDecl (hd.source_issued r hr) decl,
    fun r hr ↦ issued_addDecl (hd.target_issued r hr) decl, hd.nodup⟩

theorem WellFormed.append (hd : d.WellFormed) {r : Relation} (hs : d.issued r.source = true)
    (ht : d.issued r.target = true) (hr : r ∉ d.relations) :
    WellFormed { d with relations := d.relations ++ [r] } := by
  refine ⟨fun x hx ↦ ?_, fun x hx ↦ ?_, ?_⟩
  · rcases List.mem_append.mp hx with hx | hx
    · exact hd.source_issued x hx
    · exact List.mem_singleton.mp hx ▸ hs
  · rcases List.mem_append.mp hx with hx | hx
    · exact hd.target_issued x hx
    · exact List.mem_singleton.mp hx ▸ ht
  · refine List.nodup_append.mpr ⟨hd.nodup, List.nodup_singleton r, fun x hx y hy hxy ↦ hr ?_⟩
    rw [← List.mem_singleton.mp hy, ← hxy]
    exact hx

/-! ## Parts of well-formed diagrams -/

theorem WellFormed.issued_of_mem_adjacent (hd : d.WellFormed) {x y : Nat}
    (h : y ∈ d.adjacent x) : d.issued y = true := by
  obtain ⟨r, hr, ⟨-, rfl⟩ | ⟨rfl, -⟩⟩ := mem_adjacent.mp h
  · exact hd.target_issued r hr
  · exact hd.source_issued r hr

theorem WellFormed.issued_of_mem_ball (hd : d.WellFormed) {seeds : List Nat}
    (hs : ∀ s ∈ seeds, d.issued s = true) {k x : Nat} (hx : x ∈ d.ball seeds k) :
    d.issued x = true := by
  induction k generalizing x with
  | zero => exact hs x (mem_firsts.mp hx).1
  | succ k ih =>
    rcases mem_ball_succ.mp hx with hx | ⟨y, -, hxy⟩
    · exact ih hx
    · exact hd.issued_of_mem_adjacent hxy

/-- **What an exploration finds are issued handles, each found once.** -/
theorem WellFormed.selection_within (hd : d.WellFormed) {seeds : List Nat}
    (hs : ∀ s ∈ seeds, d.issued s = true) (depth : Nat) :
    d.Selection (d.within seeds depth) := by
  refine ⟨nodup_within d seeds depth, fun x hx ↦ ?_⟩
  rw [within_eq_ball] at hx
  exact hd.issued_of_mem_ball hs hx

theorem WellFormed.restrict (hd : d.WellFormed) {order : List Nat} (h : d.Selection order) :
    (d.restrict order).WellFormed := by
  refine ⟨fun s hs ↦ ?_, fun s hs ↦ ?_, ?_⟩
  · obtain ⟨r, -, hr⟩ := mem_relations_restrict.mp hs
    exact h.issued_restrict (Relation.renumber_eq_some_iff.mp hr).1
  · obtain ⟨r, -, hr⟩ := mem_relations_restrict.mp hs
    exact h.issued_restrict (Relation.renumber_eq_some_iff.mp hr).2.1
  · exact nodup_relations_restrict hd.nodup order

theorem LoopFree.restrict (hd : d.LoopFree) (order : List Nat) : (d.restrict order).LoopFree := by
  intro s hs hloop
  obtain ⟨r, hr, hrs⟩ := mem_relations_restrict.mp hs
  obtain ⟨hsource, htarget, -⟩ := Relation.renumber_eq_some_iff.mp hrs
  rw [← hloop] at htarget
  exact hd r hr (idxOf?_inj hsource htarget)

end Diagram

/-! ## Calls -/

/-- How a diagram begins. -/
inductive Origin where
  /-- Without types. -/
  | empty
  /-- With the given types. -/
  | ofDecls (decls : List Decl)
  /-- As the result of an inference. -/
  | build (inference : Inference) (decls : List Decl)

/-- The diagram with which a history begins. -/
def Origin.diagram : Origin → Diagram
  | .empty => .empty
  | .ofDecls decls => .ofDecls decls
  | .build inference decls => (inference.build decls).value

/-- A call on a diagram that gives a diagram.  Handles are any numbers, issued or not. -/
inductive Call where
  | clone
  | addDecl (decl : Decl)
  | addRelation (r : Relation)
  | neighbourhood (seed depth : Nat)
  | focus (name : String) (depth : Nat)

namespace Call

/-- What a call gives. -/
def outcome (d : Diagram) : Call → Except Error Diagram
  | .clone => .ok d
  | .addDecl decl => .ok (d.addDecl decl).2
  | .addRelation r => d.addRelation r
  | .neighbourhood seed depth => (d.neighbourhood seed depth).map Logged.value
  | .focus name depth => (d.focus name depth).map Logged.value

/-- The diagram to go on with after a call.  A call that fails leaves the diagram as it is. -/
def perform (d : Diagram) (call : Call) : Diagram :=
  match call.outcome d with
  | .ok e => e
  | .error _ => d

variable {d e : Diagram} {call : Call}

theorem map_value_eq_ok {result : Except Error (Logged Diagram)}
    (h : result.map Logged.value = .ok e) : ∃ part, result = .ok part ∧ part.value = e := by
  cases result with
  | error => exact nomatch h
  | ok part => exact ⟨part, rfl, Except.ok.inj h⟩

/-- **All that a call can do**: nothing, append a type, append a relation between issued handles
that was not there, or go over to the part around some issued handles. -/
theorem outcome_eq_ok (h : call.outcome d = .ok e) :
    e = d ∨
    (∃ decl, e = (d.addDecl decl).2) ∨
    (∃ r, call = .addRelation r ∧ d.issued r.source = true ∧ d.issued r.target = true ∧
      r ∉ d.relations ∧ e = { d with relations := d.relations ++ [r] }) ∨
    (∃ seeds depth, (∀ s ∈ seeds, d.issued s = true) ∧ e = d.restrict (d.within seeds depth)) := by
  cases call with
  | clone => exact .inl (Except.ok.inj h).symm
  | addDecl decl => exact .inr (.inl ⟨decl, (Except.ok.inj h).symm⟩)
  | addRelation r =>
    obtain ⟨hs, ht, he⟩ := Diagram.addRelation_eq_ok_iff.mp h
    split at he
    · exact .inl he
    · next hr => exact .inr (.inr (.inl ⟨r, rfl, hs, ht, hr, he⟩))
  | neighbourhood seed depth =>
    obtain ⟨part, hpart, rfl⟩ := map_value_eq_ok h
    obtain ⟨hseed, rfl⟩ := Diagram.neighbourhood_eq_ok_iff.mp hpart
    exact .inr (.inr (.inr ⟨[seed], depth, List.forall_mem_singleton.mpr hseed, rfl⟩))
  | focus name depth =>
    obtain ⟨part, hpart, rfl⟩ := map_value_eq_ok h
    obtain ⟨-, rfl⟩ := Diagram.focus_eq_ok_iff.mp hpart
    exact .inr (.inr (.inr ⟨d.handlesNamed name, depth,
      fun s hs ↦ Diagram.issued_of_mem_handlesNamed hs, rfl⟩))

theorem wellFormed_outcome (hd : d.WellFormed) (h : call.outcome d = .ok e) : e.WellFormed := by
  obtain rfl | ⟨decl, rfl⟩ | ⟨r, -, hs, ht, hr, rfl⟩ | ⟨seeds, depth, hseeds, rfl⟩ :=
    outcome_eq_ok h
  · exact hd
  · exact hd.addDecl decl
  · exact hd.append hs ht hr
  · exact hd.restrict (hd.selection_within hseeds depth)

theorem loopFree_outcome (hcall : ∀ r, call = .addRelation r → r.source ≠ r.target)
    (hd : d.LoopFree) (h : call.outcome d = .ok e) : e.LoopFree := by
  obtain rfl | ⟨decl, rfl⟩ | ⟨r, rfl, -, -, -, rfl⟩ | ⟨seeds, depth, -, rfl⟩ := outcome_eq_ok h
  · exact hd
  · exact hd
  · intro x hx
    rcases List.mem_append.mp hx with hx | hx
    · exact hd x hx
    · exact List.mem_singleton.mp hx ▸ hcall r rfl
  · exact hd.restrict _

/-- A property that the outcomes of a call inherit is inherited by the diagram after the call. -/
theorem perform_induction {P : Diagram → Prop} (hd : P d) (h : ∀ e, call.outcome d = .ok e → P e) :
    P (call.perform d) := by
  rw [perform]
  split
  · next e he => exact h e he
  · exact hd

end Call

/-! ## Histories -/

/-- An origin and a list of calls, the first one first. -/
structure History where
  origin : Origin
  calls : List Call

/-- The diagram at the end of a history. -/
def History.diagram (h : History) : Diagram := h.calls.foldl Call.perform h.origin.diagram

/-- The diagrams that a history can lead to. -/
def Diagram.Reachable (d : Diagram) : Prop := ∃ h : History, h.diagram = d

namespace History

/-- **What holds at the beginning and survives each call holds in the end.** -/
theorem induction {P : Diagram → Prop} (h : History) (horigin : P h.origin.diagram)
    (hcall : ∀ call ∈ h.calls, ∀ d e, P d → call.outcome d = .ok e → P e) : P h.diagram := by
  obtain ⟨origin, calls⟩ := h
  rw [diagram]
  simp only at horigin hcall ⊢
  generalize origin.diagram = d at horigin
  induction calls generalizing d with
  | nil => exact horigin
  | cons call rest ih =>
    rw [List.foldl_cons]
    refine ih (fun c hc ↦ hcall c (List.mem_cons_of_mem _ hc)) _ ?_
    exact Call.perform_induction horigin fun e ↦ hcall call List.mem_cons_self d e horigin

theorem wellFormed (h : History) : h.diagram.WellFormed := by
  refine h.induction ?_ fun call _ d e hd he ↦ Call.wellFormed_outcome hd he
  cases h.origin with
  | empty => exact Diagram.wellFormed_ofDecls []
  | ofDecls decls => exact Diagram.wellFormed_ofDecls decls
  | build inference decls => exact Diagram.wellFormed_build inference decls

theorem loopFree (h : History)
    (hcalls : ∀ call ∈ h.calls, ∀ r, call = .addRelation r → r.source ≠ r.target) :
    h.diagram.LoopFree := by
  refine h.induction ?_ fun call hc d e hd he ↦ Call.loopFree_outcome (hcalls call hc) hd he
  cases h.origin with
  | empty => exact fun r hr ↦ nomatch hr
  | ofDecls decls => exact fun r hr ↦ nomatch hr
  | build inference decls => exact Diagram.loopFree_build inference decls

/-- All that holds of the diagram at the end of a history. -/
structure Invariant (h : History) : Prop where
  /-- Both ends of each relation are issued handles. -/
  ends_issued : ∀ r ∈ h.diagram.relations,
    h.diagram.issued r.source = true ∧ h.diagram.issued r.target = true
  /-- No two relations agree in source, target and kind. -/
  nodup : (h.diagram.relations.map fun r ↦ (r.source, r.target, r.kind)).Nodup
  /-- The issued handles are the numbers below the number of types. -/
  issued_iff : ∀ x, h.diagram.issued x = true ↔ x < h.diagram.decls.length
  /-- They are listed in ascending order. -/
  handles : h.diagram.handles = List.range h.diagram.decls.length
  /-- The types stand under them in the order in which they were added. -/
  decls : h.diagram.handles.map h.diagram.decl? = h.diagram.decls.map some
  /-- A new type gets the next number. -/
  handles_addDecl : ∀ decl, (h.diagram.addDecl decl).2.handles =
    h.diagram.handles ++ [(h.diagram.addDecl decl).1]
  /-- It stands under this number, and no other handle changes its meaning. -/
  decl_addDecl : ∀ decl x, (h.diagram.addDecl decl).2.decl? x =
    if x = (h.diagram.addDecl decl).1 then some decl else h.diagram.decl? x
  /-- If no call asked for a relation from a type to itself, then there is none. -/
  loop_free : (∀ call ∈ h.calls, ∀ r, call = .addRelation r → r.source ≠ r.target) →
    ∀ r ∈ h.diagram.relations, r.source ≠ r.target

/-- **The invariant of diagrams holds after every history**, whatever its origin, its calls and
their arguments are, and whether the calls succeed or fail. -/
theorem diagram_invariant (h : History) : h.Invariant := by
  have hwf := h.wellFormed
  refine
    { ends_issued := fun r hr ↦ ⟨hwf.source_issued r hr, hwf.target_issued r hr⟩
      nodup := ?_
      issued_iff := fun x ↦ decide_eq_true_iff
      handles := rfl
      decls := h.diagram.map_decl?_handles
      handles_addDecl := h.diagram.handles_addDecl
      decl_addDecl := h.diagram.decl?_addDecl
      loop_free := h.loopFree }
  refine hwf.nodup.map fun r s hrs ↦ ?_
  rw [Prod.mk.injEq, Prod.mk.injEq] at hrs
  cases r
  cases s
  rw [Relation.mk.injEq]
  exact hrs

theorem diagram_invariant_extracted :
    let h : History :=
      ⟨.build {} [(Decl.named "A" "").withField (.named "b" "B"), .named "B" ""],
        [.addRelation ⟨1, 0, .encapsulates⟩, .addRelation ⟨0, 5, .encapsulates⟩,
          .neighbourhood 1 1, .addDecl (.named "C" ""), .clone]⟩
    h.diagram.relations = [⟨1, 0, .encapsulates⟩, ⟨0, 1, .encapsulates⟩] ∧
      (∀ call ∈ h.calls, ∀ r, call = .addRelation r → r.source ≠ r.target) ∧
      ∀ r ∈ h.diagram.relations, r.source ≠ r.target := by
  intro h
  have hcalls : ∀ call ∈ h.calls, ∀ r, call = .addRelation r → r.source ≠ r.target := by
    simp [h]
  exact ⟨by decide +kernel, hcalls, (diagram_invariant h).loop_free hcalls⟩

/-- A history with a cycle, opposite relations, a relation from a type to itself, two types of one
name, and a call that fails. -/
def tangle : History where
  origin := .ofDecls [.named "A" "", .named "B" "", .named "C" "", .named "A" ""]
  calls := [.addRelation ⟨0, 1, .encapsulates⟩, .addRelation ⟨1, 0, .encapsulates⟩,
    .addRelation ⟨1, 2, .encapsulates⟩, .addRelation ⟨2, 2, .encapsulates⟩,
    .addRelation ⟨2, 9, .encapsulates⟩, .addRelation ⟨3, 2, .encapsulates⟩,
    .addRelation ⟨2, 0, .encapsulates⟩]

end History

theorem Diagram.Reachable.wellFormed {d : Diagram} (hd : d.Reachable) : d.WellFormed := by
  obtain ⟨h, rfl⟩ := hd
  exact h.wellFormed

/-! ## Every well-formed diagram has a history -/

/-- A call for a relation does what an inference does when it adds one. -/
theorem Call.perform_addRelation (d : Logged Diagram) (r : Relation) :
    (Call.addRelation r).perform d.value = (Inference.connect d r).value := by
  rw [perform, outcome, Inference.connect]
  cases d.value.addRelation r <;> rfl

theorem Call.foldl_perform_addRelation (relations : List Relation) (d : Logged Diagram) :
    (relations.map Call.addRelation).foldl perform d.value =
      (relations.foldl Inference.connect d).value := by
  induction relations generalizing d with
  | nil => rfl
  | cons r rest ih => rw [List.map_cons, List.foldl_cons, perform_addRelation, ih, List.foldl_cons]

/-- **A well-formed diagram can be made**: begin with its types, and add its relations one by one.
So the invariant says all there is to say about the diagrams that have a history. -/
theorem Diagram.WellFormed.reachable {d : Diagram} (hd : d.WellFormed) : d.Reachable := by
  refine ⟨⟨.ofDecls d.decls, d.relations.map .addRelation⟩, ?_⟩
  have hissued : ∀ r ∈ d.relations, (ofDecls d.decls).issued r.source = true ∧
      (ofDecls d.decls).issued r.target = true :=
    fun r hr ↦ ⟨hd.source_issued r hr, hd.target_issued r hr⟩
  have hrun := Call.foldl_perform_addRelation d.relations ⟨ofDecls d.decls, []⟩
  rw [Inference.foldl_connect hissued hd.nodup] at hrun
  exact hrun

end TypeDiagram
