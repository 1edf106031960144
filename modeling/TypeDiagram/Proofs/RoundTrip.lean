import TypeDiagram.Diagram.Basic
import TypeDiagram.Settings

/-!
# Reading undoes writing

Every value of this library can be written as a document.  Reading that document gives the value
back, whatever texts, lists, arguments and absent parts it holds.

For single values, lists, dictionaries and choices this is said beside their codecs, in
`TypeDiagram.Codec.Basic`.  What remains are the records.  A record is written with its entries in
ascending order of their keys and read in that order, not in the order in which the fields are
declared.  So the reader meets the fields in any order, as far as a proof is concerned, and the
argument must not depend on it.

## What is here

* `Codec.Slots.Lawful` — each slot of a row has a name of its own and a lawful codec.
* `Codec.Slots.overwrite` — the draft after some of the fields were read.  Which of them were read
  matters, and in which order does not.
* `Codec.Slots.Lawful.fill_entry` and `Codec.Slots.Lawful.fillAll_entries` — reading an entry that
  was written, and reading any number of them.
* `Codec.Lawful.record` — **the codec of a record type is lawful** if its slots are.

## The draft

A record is read into a draft, which has a place for each slot, filled or not.  Along the entries
the draft is `Codec.Slots.overwrite` of the empty one: the slots that were named so far hold the
written values, and the others are as they were.  To overwrite by some names and then by others is
to overwrite by all of them, so the order of the entries does not show.  In the end all names were
read, and nothing is left to complete (`Codec.Slots.complete_overwrite`).

Defaults play no part in this, since a written record has all its entries.  Records with fewer
entries, or with more, are the subject of `TypeDiagram.Proofs.Omissions`.
-/

set_option autoImplicit false

namespace TypeDiagram
namespace Codec

/-! ## Rows of lawful slots -/

namespace Slots

/-- Each slot has a name of its own and a lawful codec. -/
inductive Lawful : {ts : List Type} → Slots ts → Prop
  | done : Lawful .done
  | slot {β : Type} {ts : List Type} {name : String} {codec : Codec β} {absent : Option β}
      {rest : Slots ts} (hname : name ∉ rest.names) (hcodec : codec.Lawful) (hrest : rest.Lawful) :
      Lawful (.slot name codec absent rest)

theorem Lawful.nodup_names {ts : List Type} {slots : Slots ts} (h : slots.Lawful) :
    slots.names.Nodup := by
  induction h with
  | done => exact List.nodup_nil
  | slot hname _ _ ih => exact List.nodup_cons.mpr ⟨hname, ih⟩

theorem map_fst_entries {ts : List Type} (slots : Slots ts) (values : Values ts) :
    (slots.entries values).map Prod.fst = slots.names := by
  induction slots with
  | done => rfl
  | slot name codec absent rest ih => exact congrArg (name :: ·) (ih values.2)

/-! ## Drafts in which some fields were read -/

/-- The draft with new values in the slots that the keys name. -/
def overwrite : {ts : List Type} → Slots ts → List String → Values ts → Draft ts → Draft ts
  | _, .done, _, _, draft => draft
  | _, .slot name _ _ rest, keys, (value, values), (old, draft) =>
    (if name ∈ keys then some value else old, rest.overwrite keys values draft)

variable {ts : List Type} {slots : Slots ts}

/-- Keys that name no slot change nothing. -/
theorem overwrite_eq_self {keys : List String} (h : ∀ name ∈ slots.names, name ∉ keys)
    (values : Values ts) (draft : Draft ts) : slots.overwrite keys values draft = draft := by
  induction slots with
  | done => rfl
  | slot name codec absent rest ih =>
    obtain ⟨hname, hrest⟩ := List.forall_mem_cons.mp h
    obtain ⟨value, values⟩ := values
    obtain ⟨old, draft⟩ := draft
    rw [overwrite, if_neg hname, ih hrest]

/-- Writing the same values twice is writing them once, under all of the keys. -/
theorem overwrite_overwrite (slots : Slots ts) (keys keys' : List String) (values : Values ts)
    (draft : Draft ts) :
    slots.overwrite keys' values (slots.overwrite keys values draft) =
      slots.overwrite (keys ++ keys') values draft := by
  induction slots with
  | done => rfl
  | slot name codec absent rest ih =>
    obtain ⟨value, values⟩ := values
    obtain ⟨old, draft⟩ := draft
    have hvalue : (if name ∈ keys' then some value else if name ∈ keys then some value else old) =
        if name ∈ keys ++ keys' then some value else old := by
      by_cases hkeys : name ∈ keys <;> by_cases hkeys' : name ∈ keys' <;> simp [hkeys, hkeys']
    rw [overwrite, overwrite, overwrite, ih, hvalue]

/-- When all fields were read, nothing is missing. -/
theorem complete_overwrite {keys : List String} (h : ∀ name ∈ slots.names, name ∈ keys)
    (values : Values ts) (draft : Draft ts) :
    slots.complete (slots.overwrite keys values draft) = .ok values := by
  induction slots with
  | done => rfl
  | slot name codec absent rest ih =>
    obtain ⟨hname, hrest⟩ := List.forall_mem_cons.mp h
    obtain ⟨value, values⟩ := values
    obtain ⟨old, draft⟩ := draft
    rw [overwrite, if_pos hname, complete, Option.some_or, ih hrest]
    rfl

/-! ## Reading what was written -/

section

variable {β : Type} {name : String} {codec : Codec β} {absent : Option β}

/-- An entry is read into the first slot if it has its name. -/
theorem fill_first {content : Document} {value : β} (h : codec.decode content = .ok value)
    (old : Option β) (draft : Draft ts) :
    (slot name codec absent slots).fill name content (old, draft) = .ok (some value, draft) := by
  refine (if_pos rfl).trans ?_
  rw [h]
  rfl

/-- An entry of another name is read into the other slots. -/
theorem fill_others {key : String} {content : Document} {draft draft' : Draft ts}
    (hne : key ≠ name) (h : slots.fill key content draft = .ok draft') (old : Option β) :
    (slot name codec absent slots).fill key content (old, draft) = .ok (old, draft') := by
  refine (if_neg hne).trans ?_
  rw [h]
  rfl

end

/-- **Reading one entry** puts the value that was written into its slot. -/
theorem Lawful.fill_entry (h : slots.Lawful) {values : Values ts} {entry : String × Document}
    (hentry : entry ∈ slots.entries values) (draft : Draft ts) :
    slots.fill entry.1 entry.2 draft = .ok (slots.overwrite [entry.1] values draft) := by
  induction h with
  | done => exact nomatch hentry
  | @slot β ts name codec absent rest hname hcodec hrest ih =>
    obtain ⟨value, values⟩ := values
    obtain ⟨old, draft⟩ := draft
    rcases List.mem_cons.mp hentry with rfl | hentry
    · -- the other slots have other names
      have hothers : ∀ other ∈ rest.names, other ∉ [name] := fun other hother hmem ↦
        hname (List.mem_singleton.mp hmem ▸ hother)
      rw [overwrite, overwrite_eq_self hothers, if_pos List.mem_cons_self]
      exact fill_first (hcodec value) old draft
    · have hkey : entry.1 ∈ rest.names :=
        rest.map_fst_entries values ▸ List.mem_map_of_mem hentry
      have hne : name ≠ entry.1 := fun heq ↦ hname (heq ▸ hkey)
      rw [overwrite, if_neg fun hmem ↦ hne (List.mem_singleton.mp hmem)]
      exact fill_others hne.symm (ih hentry draft) old

/-- **Reading any of the entries, in any order**, puts their values into their slots. -/
theorem Lawful.fillAll_entries (h : slots.Lawful) {values : Values ts}
    {entries : List (String × Document)}
    (hentries : ∀ entry ∈ entries, entry ∈ slots.entries values) (draft : Draft ts) :
    slots.fillAll entries draft = .ok (slots.overwrite (entries.map Prod.fst) values draft) := by
  induction entries generalizing draft with
  | nil => exact congrArg Except.ok (overwrite_eq_self (fun _ _ ↦ List.not_mem_nil) _ _).symm
  | cons entry rest ih =>
    obtain ⟨hentry, hrest⟩ := List.forall_mem_cons.mp hentries
    have hnext := ih hrest (slots.overwrite [entry.1] values draft)
    rw [overwrite_overwrite] at hnext
    rw [fillAll, h.fill_entry hentry]
    exact hnext

/-- A keyed record with all of the entries, in any order, has the values that were written. -/
theorem Lawful.ofEntries_entries (h : slots.Lawful) {values : Values ts}
    {entries : List (String × Document)}
    (hentries : ∀ entry ∈ entries, entry ∈ slots.entries values)
    (hall : ∀ name ∈ slots.names, name ∈ entries.map Prod.fst) :
    slots.ofEntries entries = .ok values := by
  rw [ofEntries, h.fillAll_entries hentries]
  exact complete_overwrite hall values _

end Slots

/-- **The codec of a record type is lawful** if its slots are, and if a record can be made again
from its fields. -/
theorem Lawful.record {α : Type} {layout : Layout α} (hslots : layout.slots.Lawful)
    (hmake : ∀ a, layout.make (layout.view a) = a) : (record layout).Lawful := by
  intro a
  have hread : layout.slots.ofEntries
      (Dictionary.ofList (layout.slots.entries (layout.view a))).bindings =
        .ok (layout.view a) := by
    refine hslots.ofEntries_entries (fun entry ↦ Dictionary.mem_of_mem_ofList) fun name hname ↦ ?_
    rw [Dictionary.mem_keys_ofList, Slots.map_fst_entries]
    exact hname
  show (layout.slots.ofEntries _).map layout.make = .ok a
  rw [hread]
  exact congrArg Except.ok (hmake a)

end Codec

/-! ## The codecs of this library -/

open Codec

theorem Visibility.codec_lawful : Visibility.codec.Lawful :=
  choice_lawful fun a ↦ by cases a <;> rfl

theorem Kind.codec_lawful : Kind.codec.Lawful :=
  choice_lawful fun a ↦ by cases a <;> rfl

theorem MatchMode.codec_lawful : MatchMode.codec.Lawful :=
  choice_lawful fun a ↦ by cases a <;> rfl

theorem RelationKind.codec_lawful : RelationKind.codec.Lawful :=
  choice_lawful fun a ↦ by cases a; rfl

theorem Tag.slots_lawful : Tag.layout.slots.Lawful :=
  .slot (by decide) text_lawful <|
  .slot (by decide) text_lawful.dictionary .done

theorem Tag.codec_lawful : Tag.codec.Lawful := .record slots_lawful fun _ ↦ rfl

theorem Field.slots_lawful : Field.layout.slots.Lawful :=
  .slot (by decide) text_lawful <|
  .slot (by decide) text_lawful <|
  .slot (by decide) text_lawful.list <|
  .slot (by decide) Visibility.codec_lawful <|
  .slot (by decide) flag_lawful .done

theorem Field.codec_lawful : Field.codec.Lawful := .record slots_lawful fun _ ↦ rfl

theorem Parameter.slots_lawful : Parameter.layout.slots.Lawful :=
  .slot (by decide) text_lawful <|
  .slot (by decide) text_lawful .done

theorem Parameter.codec_lawful : Parameter.codec.Lawful := .record slots_lawful fun _ ↦ rfl

theorem Method.slots_lawful : Method.layout.slots.Lawful :=
  .slot (by decide) text_lawful <|
  .slot (by decide) text_lawful <|
  .slot (by decide) Parameter.codec_lawful.list <|
  .slot (by decide) Visibility.codec_lawful .done

theorem Method.codec_lawful : Method.codec.Lawful := .record slots_lawful fun _ ↦ rfl

theorem Settings.slots_lawful : Settings.layout.slots.Lawful :=
  .slot (by decide) MatchMode.codec_lawful <|
  .slot (by decide) flag_lawful <|
  .slot (by decide) text_lawful.list .done

theorem Settings.codec_lawful : Settings.codec.Lawful := .record slots_lawful fun _ ↦ rfl

/-- A text is never written as `null`, so an absent text can be told from every text. -/
theorem optional_text_lawful : text.optional.Lawful :=
  text_lawful.optional fun _ h ↦ nomatch h

theorem Decl.slots_lawful : Decl.layout.slots.Lawful :=
  .slot (by decide) text_lawful <|
  .slot (by decide) text_lawful <|
  .slot (by decide) Kind.codec_lawful <|
  .slot (by decide) Field.codec_lawful.list <|
  .slot (by decide) Method.codec_lawful.list <|
  .slot (by decide) text_lawful.list <|
  .slot (by decide) text_lawful.list <|
  .slot (by decide) optional_text_lawful <|
  .slot (by decide) Tag.codec_lawful.list <|
  .slot (by decide) optional_text_lawful <|
  .slot (by decide) text_lawful.list .done

theorem Decl.codec_lawful : Decl.codec.Lawful := .record slots_lawful fun _ ↦ rfl

/-- **Reading undoes writing, for everything that has a document.**  A declared type, a field, a
method, a parameter, a tag, settings, and each of the four kinds of choices is read back from its
document as it was written. -/
theorem documents_round_trip :
    (∀ d : Decl, Decl.codec.decode (Decl.codec.encode d) = .ok d) ∧
    (∀ f : Field, Field.codec.decode (Field.codec.encode f) = .ok f) ∧
    (∀ m : Method, Method.codec.decode (Method.codec.encode m) = .ok m) ∧
    (∀ p : Parameter, Parameter.codec.decode (Parameter.codec.encode p) = .ok p) ∧
    (∀ t : Tag, Tag.codec.decode (Tag.codec.encode t) = .ok t) ∧
    (∀ s : Settings, Settings.codec.decode (Settings.codec.encode s) = .ok s) ∧
    (∀ k : Kind, Kind.codec.decode (Kind.codec.encode k) = .ok k) ∧
    (∀ v : Visibility, Visibility.codec.decode (Visibility.codec.encode v) = .ok v) ∧
    (∀ m : MatchMode, MatchMode.codec.decode (MatchMode.codec.encode m) = .ok m) ∧
    ∀ k : RelationKind, RelationKind.codec.decode (RelationKind.codec.encode k) = .ok k :=
  ⟨Decl.codec_lawful, Field.codec_lawful, Method.codec_lawful, Parameter.codec_lawful,
    Tag.codec_lawful, Settings.codec_lawful, Kind.codec_lawful, Visibility.codec_lawful,
    MatchMode.codec_lawful, RelationKind.codec_lawful⟩

end TypeDiagram
