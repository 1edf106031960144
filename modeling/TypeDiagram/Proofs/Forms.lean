import TypeDiagram.Proofs.RoundTrip
import Mathlib.Logic.Relation

/-!
# Records by key and by position

A record may be written in two forms: with the names of its fields as keys, or as a list of values
in the order in which the fields are declared.  The two are read quite differently.  A list is read
from its first item to its last, and then the remaining slots get their defaults; the entries of a
keyed record are read in the order of their keys, and only then it is looked for slots that are
still empty.  So a record with several faults is refused for different reasons in its two forms.
But it is refused in both, or it is read as the same value in both.

The values in a record may be records themselves, or lists of records, and each of these may be in
either form.

## What is here

* `Codec.Slots.Reads` — what it is for a row of slots to be read from given contents, without any
  order in which they are read.
* `Codec.Slots.ofEntries_eq_ok_iff` and `Codec.Slots.ofItems_eq_ok_iff` — **both ways of reading
  succeed exactly when the contents are read slot by slot**.
* `Form` — where records stand in a document, and `Document.SameUpToForm` — the documents that
  differ in nothing but the forms of their records, at any depth.
* `Codec.Respects` — a codec does not tell such documents apart.  For a record type it is enough to
  know this of its slots (`Codec.Respects.record`), for lists of their items
  (`Codec.Respects.list`).
* `Codec.ReadsBothForms.record` — **a record type is read alike from both forms.**

## The shape of the argument

Neither way of reading is taken for the meaning of the other.  Both are compared with
`Codec.Slots.Reads`, which asks of each slot on its own whether its content can be read or may be
missing.  This has no order in it, so the two orders of reading need not be compared with each
other.  What the two ways share is success, and the value.  The reason for a refusal belongs to the
order, and nothing is said about it.

A change of form deep inside a document is one step of `Document.Respelling`, which leads to the
place and changes one record there.  Documents that differ in many places are joined by a chain of
such steps.  Each step is carried outwards through lists and slots by the lemmas called `Respects`,
and the chain by `Codec.Respects.of_sameUpToForm`.

A list may be shorter than the row of slots; the last slots are then empty, as if their keys were
missing.  It may not be longer.
-/

set_option autoImplicit false

namespace TypeDiagram

/-! ## Readings -/

section

variable {α β : Type}

theorem bind_eq_ok {x : Reading α} {f : α → Reading β} {b : β} :
    (x >>= f) = .ok b ↔ ∃ a, x = .ok a ∧ f a = .ok b := by
  cases x <;> simp [bind, Except.bind]

theorem map_eq_ok {x : Reading α} {f : α → β} {b : β} :
    x.map f = .ok b ↔ ∃ a, x = .ok a ∧ f a = b := by
  cases x <;> simp [Except.map]

theorem map_mk_eq_ok {x : Reading β} {a a' : α} {b : β} :
    (x.map fun b ↦ (a, b)) = .ok (a', b) ↔ a = a' ∧ x = .ok b := by
  cases x <;> simp [Except.map]

theorem map_front_eq_ok {γ : Type} {x : Reading (β × γ)} {a a' : α} {b : β} {c : γ} :
    (x.map fun result ↦ ((a, result.1), result.2)) = .ok ((a', b), c) ↔
      a = a' ∧ x = .ok (b, c) := by
  cases x <;> simp [Except.map, Prod.ext_iff, and_assoc]

theorem exists_map_eq_ok {x : Reading α} {f : α → β} {P : β → Prop} :
    (∃ b, x.map f = .ok b ∧ P b) ↔ ∃ a, x = .ok a ∧ P (f a) := by
  cases x <;> simp [Except.map]

theorem map_map_eq {γ : Type} {x : Reading α} {f : α → β} {g : β → γ} {h : α → γ}
    (heq : ∀ a, g (f a) = h a) : (x.map f).map g = x.map h := by
  cases x <;> simp [Except.map, heq]

theorem exists_map_eq_error {x : Reading α} (h : ∀ a, x ≠ .ok a) (f : α → β) :
    ∃ fault, x.map f = .error fault := by
  cases x with
  | error fault => exact ⟨fault, rfl⟩
  | ok a => exact absurd rfl (h a)

/-- Two readings give the same value, or neither gives any.  Their faults may differ. -/
def SameValue (x y : Reading α) : Prop := ∀ a, x = .ok a ↔ y = .ok a

theorem SameValue.refl (x : Reading α) : SameValue x x := fun _ ↦ Iff.rfl

theorem SameValue.symm {x y : Reading α} (h : SameValue x y) : SameValue y x := fun a ↦ (h a).symm

theorem SameValue.trans {x y z : Reading α} (h : SameValue x y) (h' : SameValue y z) :
    SameValue x z :=
  fun a ↦ (h a).trans (h' a)

theorem SameValue.bind {x y : Reading α} {f g : α → Reading β} (h : SameValue x y)
    (hf : ∀ a, SameValue (f a) (g a)) : SameValue (x >>= f) (y >>= g) := by
  intro b
  rw [bind_eq_ok, bind_eq_ok]
  exact exists_congr fun a ↦ and_congr (h a) (hf a b)

theorem SameValue.map {x y : Reading α} (h : SameValue x y) (f : α → β) :
    SameValue (x.map f) (y.map f) := by
  intro b
  rw [map_eq_ok, map_eq_ok]
  exact exists_congr fun a ↦ and_congr_left' (h a)

end

/-! ## Reading slot by slot -/

namespace Codec

/-- The value is read from the content.  If there is no content, it is the value to fall back on. -/
def ReadsOr {α : Type} (c : Codec α) (content : Option Document) (fallback : Option α) (a : α) :
    Prop :=
  match content with
  | some document => c.decode document = .ok a
  | none => fallback = some a

namespace Slots

section

variable {β : Type} {ts : List Type} (name : String) (codec : Codec β) (absent : Option β)
  (rest : Slots ts)

theorem complete_slot (old : Option β) (draft : Draft ts) :
    (slot name codec absent rest).complete (old, draft) =
      match old.or absent with
      | none => .error (.missing name)
      | some value => (rest.complete draft).map fun values ↦ (value, values) := rfl

theorem fill_slot (key : String) (content : Document) (old : Option β) (draft : Draft ts) :
    (slot name codec absent rest).fill key content (old, draft) =
      if key = name then (codec.decode content).map fun value ↦ (some value, draft)
      else (rest.fill key content draft).map fun draft ↦ (old, draft) := rfl

theorem ofItemsFrom_slot_cons (tooFew : Nat → Fault) (position : Nat) (item : Document)
    (items : List Document) :
    (slot name codec absent rest).ofItemsFrom tooFew position (item :: items) =
      codec.decode item >>= fun value ↦
        (rest.ofItemsFrom tooFew (position + 1) items).map
          fun result ↦ ((value, result.1), result.2) := rfl

theorem ofItemsFrom_slot_nil (tooFew : Nat → Fault) (position : Nat) :
    (slot name codec absent rest).ofItemsFrom tooFew position [] =
      match absent with
      | none => .error (tooFew position)
      | some value => (rest.ofItemsFrom tooFew (position + 1) []).map
          fun result ↦ ((value, result.1), result.2) := by
  cases absent <;> rfl

end

theorem fillAll_append {ts : List Type} (slots : Slots ts)
    (entries entries' : List (String × Document)) (draft : Draft ts) :
    slots.fillAll (entries ++ entries') draft =
      slots.fillAll entries draft >>= slots.fillAll entries' := by
  induction entries generalizing draft with
  | nil => rfl
  | cons entry rest ih =>
    simp only [List.cons_append, fillAll, ih, bind_assoc]

/-- The values of the slots are read from the contents under their names.  A slot without content
keeps what the draft has for it, or takes its default. -/
def Reads (content : String → Option Document) :
    {ts : List Type} → Slots ts → Draft ts → Values ts → Prop
  | _, .done, _, _ => True
  | _, .slot name codec absent rest, (old, draft), (value, values) =>
    codec.ReadsOr (content name) (old.or absent) value ∧ rest.Reads content draft values

variable {ts : List Type} {slots : Slots ts}

/-- Only the contents under the names of the slots matter. -/
theorem reads_congr {content content' : String → Option Document}
    (h : ∀ name ∈ slots.names, content name = content' name) (draft : Draft ts)
    (values : Values ts) :
    slots.Reads content draft values ↔ slots.Reads content' draft values := by
  induction slots with
  | done => exact Iff.rfl
  | slot name codec absent rest ih =>
    obtain ⟨hname, hrest⟩ := List.forall_mem_cons.mp h
    obtain ⟨old, draft⟩ := draft
    obtain ⟨value, values⟩ := values
    rw [Reads, Reads, hname, ih hrest]

/-- Without any contents, the slots are completed. -/
theorem complete_eq_ok_iff {draft : Draft ts} {values : Values ts} :
    slots.complete draft = .ok values ↔ slots.Reads (fun _ ↦ none) draft values := by
  induction slots with
  | done => exact ⟨fun _ ↦ trivial, fun _ ↦ rfl⟩
  | slot name codec absent rest ih =>
    obtain ⟨old, draft⟩ := draft
    obtain ⟨value, values⟩ := values
    rw [Reads, ReadsOr, ← ih, complete_slot]
    cases old.or absent with
    | none => simp
    | some found =>
      rw [Option.some.injEq]
      exact map_mk_eq_ok

/-- Reading one more content is to read an entry first. -/
theorem reads_cons_iff (hnames : slots.names.Nodup) {content : String → Option Document}
    {key : String} (hkey : content key = none) (document : Document) (draft : Draft ts)
    (values : Values ts) :
    slots.Reads (fun name ↦ if name = key then some document else content name) draft values ↔
      ∃ draft', slots.fill key document draft = .ok draft' ∧
        slots.Reads content draft' values := by
  induction slots with
  | done => exact ⟨fun _ ↦ ⟨draft, rfl, trivial⟩, fun _ ↦ trivial⟩
  | slot name codec absent rest ih =>
    obtain ⟨hname, hrest⟩ := List.nodup_cons.mp hnames
    obtain ⟨old, draft⟩ := draft
    obtain ⟨value, values⟩ := values
    rw [fill_slot, Reads]
    by_cases heq : key = name
    · subst heq
      -- no other slot has the name of this one
      have hothers : ∀ other ∈ rest.names,
          (if other = key then some document else content other) = content other :=
        fun other hother ↦ if_neg (ne_of_mem_of_not_mem hother hname)
      rw [if_pos rfl, if_pos rfl, reads_congr hothers]
      refine Iff.trans ?_ exists_map_eq_ok.symm
      simp only [Reads, ReadsOr, hkey, Option.some_or, Option.some.injEq]
      constructor
      · exact fun h ↦ ⟨value, h.1, rfl, h.2⟩
      · rintro ⟨found, hfound, rfl, hvalues⟩
        exact ⟨hfound, hvalues⟩
    · rw [if_neg (Ne.symm heq), if_neg heq, ih hrest]
      refine Iff.trans ?_ exists_map_eq_ok.symm
      simp only [Reads]
      simp [and_left_comm]

/-- **A keyed record is read exactly when its contents are read slot by slot**, in whatever order
its entries stand. -/
theorem ofEntries_eq_ok_iff (hnames : slots.names.Nodup) {entries : List (String × Document)}
    (hkeys : (entries.map Prod.fst).Nodup) {values : Values ts} :
    slots.ofEntries entries = .ok values ↔
      slots.Reads (fun name ↦ entries.lookup name) (Draft.blank ts) values := by
  rw [ofEntries]
  generalize Draft.blank ts = draft
  rw [bind_eq_ok]
  simp only [complete_eq_ok_iff]
  induction entries generalizing draft with
  | nil => simp [fillAll]
  | cons entry rest ih =>
    obtain ⟨key, document⟩ := entry
    obtain ⟨hkey, hrest⟩ := List.nodup_cons.mp hkeys
    simp only [lookup_cons_eq_ite]
    rw [reads_cons_iff hnames (lookup_eq_none_iff_notMem.mpr hkey)]
    simp only [← ih hrest, fillAll, bind_eq_ok]
    constructor
    · rintro ⟨last, ⟨next, hnext, hlast⟩, hreads⟩
      exact ⟨next, hnext, last, hlast, hreads⟩
    · rintro ⟨next, hnext, last, hlast, hreads⟩
      exact ⟨last, ⟨next, hnext, hlast⟩, hreads⟩

/-- A list is read from its beginning, and what is left over is what exceeds the slots. -/
theorem ofItemsFrom_eq_ok_iff (hnames : slots.names.Nodup) {tooFew : Nat → Fault} {position : Nat}
    {items left : List Document} {values : Values ts} :
    slots.ofItemsFrom tooFew position items = .ok (values, left) ↔
      slots.Reads (fun name ↦ (slots.names.zip items).lookup name) (Draft.blank ts) values ∧
        left = items.drop slots.size := by
  induction slots generalizing position items with
  | done =>
    refine ⟨fun h ↦ ?_, fun h ↦ ?_⟩
    · cases h
      exact ⟨trivial, rfl⟩
    · rw [h.2]
      rfl
  | slot name codec absent rest ih =>
    obtain ⟨hname, hrest⟩ := List.nodup_cons.mp hnames
    obtain ⟨value, values⟩ := values
    rw [Draft.blank, Reads]
    cases items with
    | nil =>
      rw [ofItemsFrom_slot_nil]
      cases absent with
      | none => simp [ReadsOr]
      | some found =>
        refine map_front_eq_ok.trans ?_
        rw [ih hrest]
        simp [ReadsOr, and_assoc]
    | cons item items =>
      -- what stands in front of the others is for the first slot alone
      have hothers : ∀ other ∈ rest.names,
          (((slot name codec absent rest).names.zip (item :: items)).lookup other) =
            (rest.names.zip items).lookup other := fun other hother ↦
        (lookup_cons_eq_ite name item _ other).trans
          (if_neg (ne_of_mem_of_not_mem hother hname))
      have hfirst : ((slot name codec absent rest).names.zip (item :: items)).lookup name =
          some item :=
        (lookup_cons_eq_ite name item _ name).trans (if_pos rfl)
      rw [ofItemsFrom_slot_cons, hfirst, reads_congr hothers]
      refine bind_eq_ok.trans ?_
      refine Iff.trans (exists_congr fun found ↦ and_congr_right' map_front_eq_ok) ?_
      simp only [ih hrest, ReadsOr]
      constructor
      · rintro ⟨_, hfound, rfl, hvalues, hleft⟩
        exact ⟨⟨hfound, hvalues⟩, hleft⟩
      · rintro ⟨⟨hfound, hvalues⟩, hleft⟩
        exact ⟨value, hfound, rfl, hvalues, hleft⟩

/-- **A positional record is read exactly when it is not too long and its contents, under the names
of their places, are read slot by slot.** -/
theorem ofItems_eq_ok_iff (hnames : slots.names.Nodup) {title : String} {items : List Document}
    {values : Values ts} :
    slots.ofItems title items = .ok values ↔
      items.length ≤ slots.size ∧
        slots.Reads (fun name ↦ (slots.names.zip items).lookup name) (Draft.blank ts) values := by
  rw [ofItems, bind_eq_ok]
  constructor
  · rintro ⟨⟨read, left⟩, hread, hleft⟩
    obtain ⟨hreads, rfl⟩ := (ofItemsFrom_eq_ok_iff hnames).mp hread
    dsimp only at hleft
    split at hleft
    · next hempty =>
      cases hleft
      exact ⟨List.drop_eq_nil_iff.mp (List.isEmpty_iff.mp hempty), hreads⟩
    · exact nomatch hleft
  · rintro ⟨hlength, hreads⟩
    refine ⟨(values, []), (ofItemsFrom_eq_ok_iff hnames).mpr ⟨hreads, ?_⟩, rfl⟩
    exact (List.drop_eq_nil_iff.mpr hlength).symm

theorem nodup_keys_zip (hnames : slots.names.Nodup) (items : List Document) :
    ((slots.names.zip items).map Prod.fst).Nodup := by
  rw [List.zip_eq_zip_take_min, List.map_fst_zip (by simp)]
  exact hnames.sublist (List.take_sublist _ _)

/-- What stands in the first places may as well stand under the names of these places. -/
theorem ofItems_eq_ok_iff_ofEntries (hnames : slots.names.Nodup) {items : List Document}
    (hlength : items.length ≤ slots.size) (title : String) (values : Values ts) :
    slots.ofItems title items = .ok values ↔
      slots.ofEntries (Dictionary.ofList (slots.names.zip items)).bindings = .ok values := by
  rw [ofItems_eq_ok_iff hnames, ofEntries_eq_ok_iff hnames (Dictionary.ascending _).nodup_keys,
    and_iff_right hlength]
  refine reads_congr (fun name _ ↦ ?_) (Draft.blank ts) values
  exact (Dictionary.get?_ofList (nodup_keys_zip hnames items) name).symm

end Slots
end Codec

/-! ## Documents in different forms -/

/-- Where the records stand in a document that may be in two forms. -/
inductive Form where
  /-- There are none. -/
  | plain
  /-- The document is a list, and its items have the given form. -/
  | list (item : Form)
  /-- The document is itself such a record, with the given fields in the order of their
  declaration.  Each field has a form of its own. -/
  | record (fields : List (String × Form))

/-- The second document arises from the first when one record is written by keys instead of by
position.  The record may be the document itself or stand in it at any depth. -/
inductive Document.Respelling : Form → Document → Document → Prop
  /-- The values get the names of their places. -/
  | here {fields : List (String × Form)} {items : List Document}
      (hlength : items.length ≤ fields.length) :
      Respelling (.record fields) (.list items) (.object ((fields.map Prod.fst).zip items))
  /-- In an item of a list. -/
  | item {form : Form} {d d' : Document} (before after : List Document)
      (h : Respelling form d d') :
      Respelling (.list form) (.list (before ++ d :: after)) (.list (before ++ d' :: after))
  /-- In a value of a record that is written by position. -/
  | place {fields : List (String × Form)} {key : String} {form : Form} {d d' : Document}
      (before after : List Document) (hfield : fields[before.length]? = some (key, form))
      (h : Respelling form d d') :
      Respelling (.record fields) (.list (before ++ d :: after)) (.list (before ++ d' :: after))
  /-- In a value of a record that is written by keys. -/
  | entry {fields : List (String × Form)} {key : String} {form : Form} {d d' : Document}
      (before after : List (String × Document)) (hfield : fields.lookup key = some form)
      (h : Respelling form d d') :
      Respelling (.record fields) (.record (before ++ (key, d) :: after))
        (.record (before ++ (key, d') :: after))

/-- The documents differ in nothing but the forms of their records.  Any number of records may be
in different forms, in one another or side by side. -/
def Document.SameUpToForm (form : Form) : Document → Document → Prop :=
  Relation.EqvGen (Document.Respelling form)

namespace Codec

variable {α : Type} {c : Codec α} {form : Form}

/-- The codec does not tell a record by position from one by keys, wherever they stand. -/
def Respects (c : Codec α) (form : Form) : Prop :=
  ∀ ⦃d d' : Document⦄, d.Respelling form d' → SameValue (c.decode d) (c.decode d')

theorem Respects.of_sameUpToForm (h : c.Respects form) {d d' : Document}
    (hsame : d.SameUpToForm form d') : SameValue (c.decode d) (c.decode d') := by
  induction hsame with
  | rel d d' hstep => exact h hstep
  | refl d => exact .refl _
  | symm d d' _ ih => exact ih.symm
  | trans d d' d'' _ _ ih ih' => exact ih.trans ih'

theorem Respects.plain : c.Respects .plain := fun _ _ h ↦ nomatch h

/-- In a list it is enough to know it of the items. -/
theorem Respects.list (h : c.Respects form) : c.list.Respects (.list form) := by
  intro d d' h'
  cases h' with
  | item before after hstep =>
    show SameValue (c.decodeItems _) (c.decodeItems _)
    induction before with
    | nil => exact (h hstep).bind fun _ ↦ .refl _
    | cons first before ih => exact .bind (.refl _) fun _ ↦ ih.bind fun _ ↦ .refl _

namespace Slots

/-- The slots have the given names, and their codecs respect the given forms. -/
inductive Respects : {ts : List Type} → Slots ts → List (String × Form) → Prop
  | done : Respects .done []
  | slot {β : Type} {ts : List Type} {name : String} {codec : Codec β} {absent : Option β}
      {rest : Slots ts} {form : Form} {fields : List (String × Form)}
      (hcodec : codec.Respects form) (hrest : rest.Respects fields) :
      Respects (.slot name codec absent rest) ((name, form) :: fields)

variable {ts : List Type} {slots : Slots ts} {fields : List (String × Form)} {key : String}
  {d d' : Document}

theorem Respects.names_eq (h : slots.Respects fields) : slots.names = fields.map Prod.fst := by
  induction h with
  | done => rfl
  | slot hcodec hrest ih => exact congrArg (_ :: ·) ih

/-- An entry may be read in either form. -/
theorem Respects.fill (h : slots.Respects fields) (hfield : fields.lookup key = some form)
    (hstep : d.Respelling form d') (draft : Draft ts) :
    SameValue (slots.fill key d draft) (slots.fill key d' draft) := by
  induction h with
  | done => exact .refl _
  | @slot β ts name codec absent rest first fields hcodec hrest ih =>
    obtain ⟨old, draft⟩ := draft
    rw [fill_slot, fill_slot]
    rw [lookup_cons_eq_ite] at hfield
    by_cases heq : key = name
    · rw [if_pos heq] at hfield
      cases hfield
      rw [if_pos heq, if_pos heq]
      exact (hcodec hstep).map _
    · rw [if_neg heq] at hfield
      rw [if_neg heq, if_neg heq]
      exact (ih hfield draft).map _

theorem Respects.fillAll (h : slots.Respects fields) (hfield : fields.lookup key = some form)
    (hstep : d.Respelling form d') (before after : List (String × Document)) (draft : Draft ts) :
    SameValue (slots.fillAll (before ++ (key, d) :: after) draft)
      (slots.fillAll (before ++ (key, d') :: after) draft) := by
  rw [fillAll_append, fillAll_append]
  exact .bind (.refl _) fun draft ↦ (h.fill hfield hstep draft).bind fun _ ↦ .refl _

/-- An item may be read in either form. -/
theorem Respects.ofItemsFrom (h : slots.Respects fields) {before : List Document}
    (hfield : fields[before.length]? = some (key, form)) (hstep : d.Respelling form d')
    (after : List Document) (tooFew : Nat → Fault) (position : Nat) :
    SameValue (slots.ofItemsFrom tooFew position (before ++ d :: after))
      (slots.ofItemsFrom tooFew position (before ++ d' :: after)) := by
  induction h generalizing before position with
  | done => exact nomatch hfield
  | @slot β ts name codec absent rest first fields hcodec hrest ih =>
    cases before with
    | nil =>
      cases hfield
      exact (hcodec hstep).bind fun _ ↦ .refl _
    | cons item before =>
      have hnext : fields[before.length]? = some (key, form) := hfield
      exact .bind (.refl _) fun value ↦ (ih hnext (position + 1)).bind fun _ ↦ .refl _

end Slots

/-- In a record it is enough to know it of the slots. -/
theorem Respects.record {layout : Layout α} {fields : List (String × Form)}
    (hnames : layout.slots.names.Nodup) (h : layout.slots.Respects fields) :
    (record layout).Respects (.record fields) := by
  intro d d' h'
  cases h' with
  | @here _ items hlength =>
    have hsize : items.length ≤ layout.slots.size := by
      rw [Slots.size, h.names_eq, List.length_map]
      exact hlength
    rw [← h.names_eq]
    exact .map (Slots.ofItems_eq_ok_iff_ofEntries hnames hsize layout.title) layout.make
  | place before after hfield hstep =>
    refine .map (.bind (h.ofItemsFrom hfield hstep after _ 0) fun _ ↦ ?_) layout.make
    simp only [List.length_append, List.length_cons]
    exact .refl _
  | entry before after hfield hstep =>
    exact .map (.bind (h.fillAll hfield hstep before after _) fun _ ↦ .refl _) layout.make

/-- A record type is read alike from both of its forms.  Its fields are given in the order of their
declaration, each with the form of its values. -/
structure ReadsBothForms (c : Codec α) (fields : List (String × Form)) : Prop where
  /-- Values by position are read like the same values under the names of the first fields. -/
  byPosition : ∀ items : List Document, items.length ≤ fields.length → ∀ a,
    c.decode (.list items) = .ok a ↔
      c.decode (.object ((fields.map Prod.fst).zip items)) = .ok a
  /-- This is so for the records in these values, too, and for the records in those. -/
  atEveryDepth : ∀ d d' : Document, d.SameUpToForm (.record fields) d' → ∀ a,
    c.decode d = .ok a ↔ c.decode d' = .ok a
  /-- There is no place for more values than there are fields. -/
  notTooMany : ∀ items : List Document, fields.length < items.length →
    ∃ fault, c.decode (.list items) = .error fault

theorem ReadsBothForms.record {layout : Layout α} {fields : List (String × Form)}
    (hslots : layout.slots.Lawful) (h : layout.slots.Respects fields) :
    (record layout).ReadsBothForms fields where
  byPosition items hlength := Respects.record hslots.nodup_names h (.here hlength)
  atEveryDepth d d' hsame := (Respects.record hslots.nodup_names h).of_sameUpToForm hsame
  notTooMany items hlength := by
    refine exists_map_eq_error (fun values hread ↦ ?_) layout.make
    have hsize := ((Slots.ofItems_eq_ok_iff hslots.nodup_names).mp hread).1
    rw [Slots.size, h.names_eq, List.length_map] at hsize
    omega

end Codec

/-! ## The records of this library -/

/-- The fields of a tag. -/
def Tag.forms : List (String × Form) := [("type_name", .plain), ("arguments", .plain)]

/-- The fields of a field. -/
def Field.forms : List (String × Form) :=
  [("name", .plain), ("type_name", .plain), ("type_arguments", .plain), ("visibility", .plain),
    ("show", .plain)]

/-- The fields of a parameter. -/
def Parameter.forms : List (String × Form) := [("name", .plain), ("type_name", .plain)]

/-- The fields of a method. -/
def Method.forms : List (String × Form) :=
  [("name", .plain), ("return_type_name", .plain), ("parameters", .list (.record Parameter.forms)),
    ("visibility", .plain)]

/-- The fields of settings. -/
def Settings.forms : List (String × Form) :=
  [("match_mode", .plain), ("match_type_arguments", .plain), ("required_annotations", .plain)]

/-- The fields of a declared type. -/
def Decl.forms : List (String × Form) :=
  [("name", .plain), ("package", .plain), ("kind", .plain),
    ("fields", .list (.record Field.forms)), ("methods", .list (.record Method.forms)),
    ("super_type_names", .plain), ("interface_names", .plain), ("parent_type", .plain),
    ("annotations", .list (.record Tag.forms)), ("doc", .plain), ("imports", .plain)]

open Codec

theorem Tag.slots_respect : Tag.layout.slots.Respects Tag.forms :=
  .slot .plain <| .slot .plain .done

theorem Field.slots_respect : Field.layout.slots.Respects Field.forms :=
  .slot .plain <| .slot .plain <| .slot .plain <| .slot .plain <| .slot .plain .done

theorem Parameter.slots_respect : Parameter.layout.slots.Respects Parameter.forms :=
  .slot .plain <| .slot .plain .done

theorem Method.slots_respect : Method.layout.slots.Respects Method.forms :=
  .slot .plain <| .slot .plain <|
  .slot (.list <| .record Parameter.slots_lawful.nodup_names Parameter.slots_respect) <|
  .slot .plain .done

theorem Settings.slots_respect : Settings.layout.slots.Respects Settings.forms :=
  .slot .plain <| .slot .plain <| .slot .plain .done

theorem Decl.slots_respect : Decl.layout.slots.Respects Decl.forms :=
  .slot .plain <| .slot .plain <| .slot .plain <|
  .slot (.list <| .record Field.slots_lawful.nodup_names Field.slots_respect) <|
  .slot (.list <| .record Method.slots_lawful.nodup_names Method.slots_respect) <|
  .slot .plain <| .slot .plain <| .slot .plain <|
  .slot (.list <| .record Tag.slots_lawful.nodup_names Tag.slots_respect) <|
  .slot .plain <| .slot .plain .done

/-- **Every record means the same by position and by keys**: a declared type, a field, a method, a
parameter, a tag and settings. -/
theorem records_read_in_both_forms :
    Decl.codec.ReadsBothForms Decl.forms ∧
    Field.codec.ReadsBothForms Field.forms ∧
    Method.codec.ReadsBothForms Method.forms ∧
    Parameter.codec.ReadsBothForms Parameter.forms ∧
    Tag.codec.ReadsBothForms Tag.forms ∧
    Settings.codec.ReadsBothForms Settings.forms :=
  ⟨.record Decl.slots_lawful Decl.slots_respect,
    .record Field.slots_lawful Field.slots_respect,
    .record Method.slots_lawful Method.slots_respect,
    .record Parameter.slots_lawful Parameter.slots_respect,
    .record Tag.slots_lawful Tag.slots_respect,
    .record Settings.slots_lawful Settings.slots_respect⟩

/-- A method by position with a parameter by position, and the same method by keys with the
parameter by keys. -/
theorem both_forms_of_method :
    let byPosition : Document :=
      .list [.text "pay", .text "Receipt", .list [.list [.text "amount", .text "Money"]]]
    let byKeys : Document :=
      .object [("name", .text "pay"), ("return_type_name", .text "Receipt"), ("parameters",
        .list [.object [("name", .text "amount"), ("type_name", .text "Money")]])]
    let pay : Method := (Method.named "pay" "Receipt").withParameter ⟨"amount", "Money"⟩
    byPosition.SameUpToForm (.record Method.forms) byKeys ∧
      Method.codec.decode byPosition = .ok pay ∧ Method.codec.decode byKeys = .ok pay := by
  intro byPosition byKeys pay
  have hsame : byPosition.SameUpToForm (.record Method.forms) byKeys :=
    .trans _ _ _
      (.rel _ _ (.place [.text "pay", .text "Receipt"] [] rfl (.item [] [] (.here (by decide)))))
      (.rel _ _ (.here (by decide)))
  obtain ⟨-, -, hmethod, -⟩ := records_read_in_both_forms
  exact ⟨hsame, rfl, (hmethod.atEveryDepth byPosition byKeys hsame pay).mp rfl⟩

end TypeDiagram
