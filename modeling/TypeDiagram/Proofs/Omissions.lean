import TypeDiagram.Proofs.Forms

/-!
# Entries that make no difference

A keyed record may have entries that name none of its fields, and it may lack entries for those of
its fields that have a default.  Neither changes what is read from it, and this includes the fault
if it is refused.  That is more than to read the same value: the entries are read in the order of
their keys up to the first fault, and an entry that is added or left out may stand anywhere in that
order.

An entry that names no field is passed over.  For a default the argument is that an entry is read
into its own slot, whatever the other slots hold, and does not change these.  So it makes no
difference when the default is read.  It may be read when all other entries have been, and by then
its slot is still empty.  But that is when an empty slot takes its default anyway.

## What is here

* `Codec.Slots.defaults` and `Codec.Slots.requiredNames` — the slots that may be left out, with the
  documents of their defaults, and the slots that may not.
* `Codec.Slots.fillAll_filter` — an entry that names no slot may be left out.
* `Codec.Slots.reset` — the draft with nothing but the default in one slot, or not even that.
  Reading entries under other keys commutes with it (`Codec.Slots.fillAll_reset`).
* `Codec.Slots.Lawful.ofEntries_default` — **an entry with a default may be left out.**
* `Codec.ReadsKnownKeys.record` — what this means for the objects from which a record is read.

## What may not be left out

A field without a default has to be given, even if its type has an obvious empty value.  And what is
given has to be readable, even in a field that could have been left out.  In particular a missing
entry and one that says null are two things, except in those fields whose default is written as
null.

That a default may be added at any place is shown by moving it to the end.  The obvious induction
over the entries does not go through: an entry in front of others changes the draft into which these
are read, so the two readings have to be compared from different drafts.  `Codec.Slots.reset` is the
relation between the two drafts that survives each entry.
-/

set_option autoImplicit false

namespace TypeDiagram
namespace Codec

variable {α : Type}

namespace Slots

/-! ## Slots with and without defaults -/

/-- The names of the slots that have to be filled. -/
def requiredNames : {ts : List Type} → Slots ts → List String
  | _, .done => []
  | _, .slot name _ none rest => name :: rest.requiredNames
  | _, .slot _ _ (some _) rest => rest.requiredNames

/-- The documents of the defaults under the names of their slots. -/
def defaults : {ts : List Type} → Slots ts → List (String × Document)
  | _, .done => []
  | _, .slot _ _ none rest => rest.defaults
  | _, .slot name codec (some absent) rest => (name, codec.encode absent) :: rest.defaults

variable {ts : List Type} {slots : Slots ts}

/-- A slot has a default or has to be filled. -/
theorem mem_names_iff {name : String} :
    name ∈ slots.names ↔ name ∈ slots.requiredNames ++ slots.defaults.map Prod.fst := by
  induction slots with
  | done => simp [names, requiredNames, defaults]
  | slot first codec absent rest ih =>
    rw [List.mem_append] at ih
    cases absent with
    | none => simp [names, requiredNames, defaults, ih]
    | some absent => simp [names, requiredNames, defaults, ih, or_left_comm]

/-- A slot that has to be filled is not read from nothing. -/
theorem Reads.isSome_of_required {content : String → Option Document} {values : Values ts}
    (h : slots.Reads content (Draft.blank ts) values) {name : String}
    (hname : name ∈ slots.requiredNames) : (content name).isSome := by
  induction slots with
  | done => exact nomatch hname
  | slot first codec absent rest ih =>
    obtain ⟨value, values⟩ := values
    obtain ⟨hfirst, hrest⟩ := h
    cases absent with
    | some absent => exact ih hrest hname
    | none =>
      rcases List.mem_cons.mp hname with rfl | hname
      · cases hcontent : content name with
        | some document => rfl
        | none =>
          rw [hcontent] at hfirst
          exact nomatch hfirst
      · exact ih hrest hname

/-! ## Entries that name no slot -/

/-- An entry that names no slot is passed over. -/
theorem fill_of_notMem {key : String} (hkey : key ∉ slots.names) (content : Document)
    (draft : Draft ts) : slots.fill key content draft = .ok draft := by
  induction slots with
  | done => rfl
  | slot name codec absent rest ih =>
    obtain ⟨hname, hrest⟩ := List.ne_and_not_mem_of_not_mem_cons hkey
    exact fill_others hname (ih hrest draft.2) draft.1

/-- **The entries that name no slot may be left out.** -/
theorem fillAll_filter {known : String × Document → Bool}
    (hknown : ∀ entry, entry.1 ∈ slots.names → known entry = true)
    (entries : List (String × Document)) (draft : Draft ts) :
    slots.fillAll (entries.filter known) draft = slots.fillAll entries draft := by
  induction entries generalizing draft with
  | nil => rfl
  | cons entry rest ih =>
    cases hcase : known entry with
    | true =>
      rw [List.filter_cons_of_pos hcase, fillAll, fillAll]
      exact bind_congr ih
    | false =>
      have hname : entry.1 ∉ slots.names := fun hmem ↦ by simp [hknown entry hmem] at hcase
      rw [List.filter_cons_of_neg (by simp [hcase]), ih, fillAll, fill_of_notMem hname]
      rfl

/-! ## Entries with defaults -/

/-- The draft in which the slot with the given name holds its default, or nothing. -/
def reset (key : String) (filled : Bool) : {ts : List Type} → Slots ts → Draft ts → Draft ts
  | _, .done, draft => draft
  | _, .slot name _ absent rest, (old, draft) =>
    if key = name then (if filled then absent else none, draft)
    else (old, rest.reset key filled draft)

section

variable {β : Type} {name : String} {codec : Codec β} {absent : Option β}

theorem reset_first (filled : Bool) (old : Option β) (draft : Draft ts) :
    (slot name codec absent slots).reset name filled (old, draft) =
      (if filled then absent else none, draft) :=
  if_pos rfl

theorem reset_others {key : String} (hne : key ≠ name) (filled : Bool) (old : Option β)
    (draft : Draft ts) :
    (slot name codec absent slots).reset key filled (old, draft) =
      (old, slots.reset key filled draft) :=
  if_neg hne

end

theorem reset_blank (key : String) :
    slots.reset key false (Draft.blank ts) = Draft.blank ts := by
  induction slots with
  | done => rfl
  | slot name codec absent rest ih =>
    by_cases hname : key = name
    · subst hname
      exact reset_first false none _
    · exact (reset_others hname false none _).trans (congrArg (Prod.mk none) ih)

/-- In the end, a slot that holds nothing is the same as one that holds its default. -/
theorem complete_reset (key : String) (draft : Draft ts) :
    slots.complete (slots.reset key true draft) = slots.complete (slots.reset key false draft) := by
  induction slots with
  | done => rfl
  | slot name codec absent rest ih =>
    obtain ⟨old, draft⟩ := draft
    by_cases hname : key = name
    · subst hname
      rw [reset_first, reset_first, complete_slot, complete_slot]
      simp
    · rw [reset_others hname, reset_others hname, complete_slot, complete_slot, ih]

/-- What is in a slot does not matter for an entry with another key. -/
theorem fill_reset {key other : String} (hne : other ≠ key) (filled : Bool) (content : Document)
    (draft : Draft ts) :
    slots.fill other content (slots.reset key filled draft) =
      (slots.fill other content draft).map (slots.reset key filled) := by
  induction slots with
  | done => rfl
  | slot name codec absent rest ih =>
    obtain ⟨old, draft⟩ := draft
    by_cases hname : key = name
    · subst hname
      rw [reset_first, fill_slot, fill_slot, if_neg hne, if_neg hne]
      exact (map_map_eq fun draft ↦ reset_first filled old draft).symm
    · rw [reset_others hname, fill_slot, fill_slot]
      split
      · exact (map_map_eq fun value ↦ reset_others hname filled (some value) draft).symm
      · rw [ih]
        refine (map_map_eq fun draft ↦ ?_).trans (map_map_eq fun draft ↦ rfl).symm
        exact (reset_others hname filled old draft).symm

theorem fillAll_reset {key : String} {entries : List (String × Document)}
    (hkey : key ∉ entries.map Prod.fst) (filled : Bool) (draft : Draft ts) :
    slots.fillAll entries (slots.reset key filled draft) =
      (slots.fillAll entries draft).map (slots.reset key filled) := by
  induction entries generalizing draft with
  | nil => rfl
  | cons entry rest ih =>
    obtain ⟨hentry, hrest⟩ := List.ne_and_not_mem_of_not_mem_cons hkey
    rw [fillAll, fillAll, fill_reset (Ne.symm hentry)]
    cases slots.fill entry.1 entry.2 draft with
    | error fault => rfl
    | ok draft => exact ih hrest draft

/-- An entry with the default of its slot is always read. -/
theorem Lawful.fill_default (h : slots.Lawful) {entry : String × Document}
    (hentry : entry ∈ slots.defaults) (draft : Draft ts) :
    slots.fill entry.1 entry.2 draft = .ok (slots.reset entry.1 true draft) := by
  induction h with
  | done => exact nomatch hentry
  | @slot β ts name codec absent rest hname hcodec hrest ih =>
    obtain ⟨old, draft⟩ := draft
    have hothers (hmem : entry ∈ rest.defaults) :
        (Slots.slot name codec absent rest).fill entry.1 entry.2 (old, draft) =
          .ok ((Slots.slot name codec absent rest).reset entry.1 true (old, draft)) := by
      have hkey : entry.1 ∈ rest.names :=
        mem_names_iff.mpr (List.mem_append_right _ (List.mem_map_of_mem hmem))
      have hne : entry.1 ≠ name := ne_of_mem_of_not_mem hkey hname
      rw [reset_others hne]
      exact fill_others hne (ih hmem draft) old
    cases absent with
    | none => exact hothers hentry
    | some absent =>
      rcases List.mem_cons.mp hentry with rfl | hmem
      · rw [reset_first]
        exact fill_first (hcodec absent) old draft
      · exact hothers hmem

/-- Reading an entry with a default puts the default into its slot, and does nothing else. -/
theorem Lawful.fillAll_default (h : slots.Lawful) {entry : String × Document}
    (hentry : entry ∈ slots.defaults) (before : List (String × Document))
    {after : List (String × Document)} (hkey : entry.1 ∉ after.map Prod.fst) (draft : Draft ts) :
    slots.fillAll (before ++ entry :: after) draft =
      (slots.fillAll (before ++ after) draft).map (slots.reset entry.1 true) := by
  rw [fillAll_append, fillAll_append]
  cases slots.fillAll before draft with
  | error fault => rfl
  | ok draft =>
    show slots.fillAll (entry :: after) draft =
      (slots.fillAll after draft).map (slots.reset entry.1 true)
    rw [fillAll, h.fill_default hentry]
    exact fillAll_reset hkey true draft

/-- **An entry with the default of its slot may be left out**, wherever it stands. -/
theorem Lawful.ofEntries_default (h : slots.Lawful) {entry : String × Document}
    (hentry : entry ∈ slots.defaults) {before after : List (String × Document)}
    (hkey : entry.1 ∉ (before ++ after).map Prod.fst) :
    slots.ofEntries (before ++ entry :: after) = slots.ofEntries (before ++ after) := by
  have hafter : entry.1 ∉ after.map Prod.fst := fun hmem ↦
    hkey (List.map_append ▸ List.mem_append_right _ hmem)
  -- no other entry is read into the slot, so without this one it is empty in the end
  have hempty : slots.fillAll (before ++ after) (Draft.blank ts) =
      (slots.fillAll (before ++ after) (Draft.blank ts)).map (slots.reset entry.1 false) := by
    rw [← fillAll_reset hkey, reset_blank]
  calc slots.ofEntries (before ++ entry :: after)
      = (slots.fillAll (before ++ after) (Draft.blank ts)).map (slots.reset entry.1 true) >>=
          slots.complete := by rw [ofEntries, h.fillAll_default hentry before hafter]
    _ = (slots.fillAll (before ++ after) (Draft.blank ts)).map (slots.reset entry.1 false) >>=
          slots.complete := by
        cases slots.fillAll (before ++ after) (Draft.blank ts) with
        | error fault => rfl
        | ok draft => exact complete_reset entry.1 draft
    _ = slots.ofEntries (before ++ after) := by rw [← hempty, ofEntries]

end Slots

/-! ## Objects that mean the same -/

/-- A record type is read from the entries under known keys.  The known keys are those that an
object has to have, and those under which it may leave out the default. -/
structure ReadsKnownKeys (c : Codec α) (required : List String)
    (defaults : List (String × Document)) : Prop where
  /-- All other entries may be deleted. -/
  unknown : ∀ o : Dictionary Document,
    c.decode (.record (o.bindings.filter fun entry ↦
      entry.1 ∈ required ++ defaults.map Prod.fst)) = c.decode (.record o.bindings)
  /-- A default that is left out may be added. -/
  omitted : ∀ o : Dictionary Document, ∀ entry ∈ defaults, o.get? entry.1 = none →
    c.decode (.record (o.insert entry.1 entry.2).bindings) = c.decode (.record o.bindings)
  /-- Nothing else may be left out. -/
  missing : ∀ o : Dictionary Document, ∀ name ∈ required, o.get? name = none →
    ∃ fault, c.decode (.record o.bindings) = .error fault

/-- **A record is read from the entries of its slots, and a default is read from nothing.** -/
theorem ReadsKnownKeys.record {layout : Layout α} (h : layout.slots.Lawful) :
    (record layout).ReadsKnownKeys layout.slots.requiredNames layout.slots.defaults where
  unknown o := by
    show (layout.slots.ofEntries _).map _ = (layout.slots.ofEntries _).map _
    rw [Slots.ofEntries, Slots.ofEntries, Slots.fillAll_filter]
    exact fun entry hname ↦ decide_eq_true (Slots.mem_names_iff.mp hname)
  omitted o entry hentry habsent := by
    have hkey := lookup_eq_none_iff_notMem.mp habsent
    obtain ⟨before, after, hbindings, hinsert⟩ := exists_insertKey_eq hkey entry.2
    show (layout.slots.ofEntries _).map _ = (layout.slots.ofEntries _).map _
    rw [hbindings] at hkey
    rw [Dictionary.bindings_insert, hinsert, hbindings, h.ofEntries_default hentry hkey]
  missing o name hname habsent := by
    refine exists_map_eq_error (fun values hread ↦ ?_) layout.make
    have hreads := (Slots.ofEntries_eq_ok_iff h.nodup_names o.ascending.nodup_keys).mp hread
    have hsome : (o.get? name).isSome := hreads.isSome_of_required hname
    simp [habsent] at hsome

end Codec

/-- **Every record may have more entries than it needs, and need not have those for its defaults.**
The fields of a declared type, a field, a method, a parameter, a tag and settings are known by their
names; some have to be given, and the others have these defaults. -/
theorem records_read_from_known_keys :
    Decl.codec.ReadsKnownKeys ["name"]
      [("package", .text ""), ("kind", .text "Class"), ("fields", .list []),
        ("methods", .list []), ("super_type_names", .list []), ("interface_names", .list []),
        ("parent_type", .null), ("annotations", .list []), ("doc", .null),
        ("imports", .list [])] ∧
    Field.codec.ReadsKnownKeys ["name", "type_name"]
      [("type_arguments", .list []), ("visibility", .text "Public"), ("show", .flag true)] ∧
    Method.codec.ReadsKnownKeys ["name"]
      [("return_type_name", .text ""), ("parameters", .list []),
        ("visibility", .text "Public")] ∧
    Parameter.codec.ReadsKnownKeys ["name", "type_name"] [] ∧
    Tag.codec.ReadsKnownKeys ["type_name"] [("arguments", .record [])] ∧
    Settings.codec.ReadsKnownKeys ["match_mode", "match_type_arguments"]
      [("required_annotations", .list [])] :=
  ⟨.record Decl.slots_lawful, .record Field.slots_lawful, .record Method.slots_lawful,
    .record Parameter.slots_lawful, .record Tag.slots_lawful, .record Settings.slots_lawful⟩

/-- A field with a unit, which is not read, and with its default written out, which is read before
the name of its type.  The field has a proper type name in the first object, a number in the second,
and none in the third. -/
theorem field_read_from_known_keys :
    let named : Dictionary Document :=
      .ofList [("name", .text "price"), ("type_name", .text "Money"), ("unit", .null)]
    let numbered : Dictionary Document := named.insert "type_name" (.integer 5)
    let unnamed : Dictionary Document := .ofList [("name", .text "price"), ("unit", .null)]
    Field.codec.decode (.record (named.insert "show" (.flag true)).bindings) =
        .ok (Field.named "price" "Money") ∧
      Field.codec.decode (.record (numbered.insert "show" (.flag true)).bindings) =
        .error (.unexpected (.integer 5) .text) ∧
      ∃ fault, Field.codec.decode (.record unnamed.bindings) = .error fault := by
  intro named numbered unnamed
  obtain ⟨-, hfield, -⟩ := records_read_from_known_keys
  have hshow : ("show", Document.flag true) ∈ [("type_arguments", .list []),
      ("visibility", .text "Public"), ("show", .flag true)] := by simp
  refine ⟨?_, ?_, ?_⟩
  · exact (hfield.omitted named _ hshow rfl).trans rfl
  · exact (hfield.omitted numbered _ hshow rfl).trans rfl
  · exact hfield.missing unnamed "type_name" (by decide) rfl

end TypeDiagram
