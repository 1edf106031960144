import TypeDiagram.Codec.Basic

/-!
# Codecs of records

A record type is laid out as a row of *slots* in the order in which its fields are declared.  A
slot has a name, a codec and possibly a default; a slot with a default is optional, one without is
required.  The layout is all that distinguishes one record type from another, so the rules below
hold for every record type of this library:

* A record is written with every field under its name.
* From a **keyed** record the entries are read in the order in which they stand.  An entry whose
  key names no slot is passed over.  When all entries are read, an empty slot takes its default;
  the first empty slot without one is reported as missing.  A `null` does not stand for an absent
  entry.
* From a **positional** record, which is a list, the slots are filled in the order of their
  declaration.  When the list ends early the remaining slots take their defaults, and a slot
  without one makes the list too short.  A list with more items than there are slots is refused.

The values of a row of slots have different types, so a row is indexed by the list of these types;
`Values` holds one value for each slot and `Draft` at most one.
-/

set_option autoImplicit false

namespace TypeDiagram
namespace Codec

/-! ## Rows of slots -/

/-- A row of slots for values of the given types. -/
inductive Slots : List Type → Type 1 where
  /-- No slots. -/
  | done : Slots []
  /-- A slot in front of others. -/
  | slot {β : Type} {ts : List Type} (name : String) (codec : Codec β) (absent : Option β)
      (rest : Slots ts) : Slots (β :: ts)

/-- One value for each slot. -/
def Values : List Type → Type
  | [] => Unit
  | β :: ts => β × Values ts

/-- At most one value for each slot. -/
def Draft : List Type → Type
  | [] => Unit
  | β :: ts => Option β × Draft ts

/-- The draft in which every slot is empty. -/
def Draft.blank : (ts : List Type) → Draft ts
  | [] => ()
  | _ :: ts => (none, Draft.blank ts)

namespace Slots

/-- A slot that has to be filled. -/
def required {β : Type} {ts : List Type} (name : String) (codec : Codec β) (rest : Slots ts) :
    Slots (β :: ts) :=
  .slot name codec none rest

/-- A slot with a default. -/
def defaulted {β : Type} {ts : List Type} (name : String) (codec : Codec β) (absent : β)
    (rest : Slots ts) : Slots (β :: ts) :=
  .slot name codec (some absent) rest

/-- The names of the slots, in order. -/
def names : {ts : List Type} → Slots ts → List String
  | _, .done => []
  | _, .slot name _ _ rest => name :: rest.names

/-- The number of slots. -/
def size {ts : List Type} (slots : Slots ts) : Nat := slots.names.length

/-! ## Writing -/

/-- The entries of a record, one for each slot, in the order of the slots. -/
def entries : {ts : List Type} → Slots ts → Values ts → List (String × Document)
  | _, .done, _ => []
  | _, .slot name codec _ rest, (value, values) =>
    (name, codec.encode value) :: rest.entries values

/-! ## Reading by keys -/

/-- Read one entry into the slot that it names.  An entry that names no slot is passed over. -/
def fill : {ts : List Type} → Slots ts → String → Document → Draft ts → Reading (Draft ts)
  | _, .done, _, _, draft => .ok draft
  | _, .slot name codec _ rest, key, content, (value, draft) =>
    if key = name then do
      let value ← codec.decode content
      return (some value, draft)
    else do
      let draft ← rest.fill key content draft
      return (value, draft)

/-- Read entries one after the other, up to the first fault. -/
def fillAll {ts : List Type} (slots : Slots ts) :
    List (String × Document) → Draft ts → Reading (Draft ts)
  | [], draft => .ok draft
  | entry :: rest, draft => do
    let draft ← slots.fill entry.1 entry.2 draft
    slots.fillAll rest draft

/-- Give every empty slot its default.  The first one without a default is missing. -/
def complete : {ts : List Type} → Slots ts → Draft ts → Reading (Values ts)
  | _, .done, _ => .ok ()
  | _, .slot name _ absent rest, (value, draft) =>
    match value.or absent with
    | none => .error (.missing name)
    | some value => do
      let values ← rest.complete draft
      return (value, values)

/-- The values of a keyed record. -/
def ofEntries {ts : List Type} (slots : Slots ts) (entries : List (String × Document)) :
    Reading (Values ts) := do
  let draft ← slots.fillAll entries (Draft.blank ts)
  slots.complete draft

/-! ## Reading by position -/

/-- Read items into the slots in turn, and return the items that are left over.  The first slot
of the row has number `position`; `tooFew` makes the fault of a list that ends before the slot
with the given number. -/
def ofItemsFrom (tooFew : Nat → Fault) :
    {ts : List Type} → Slots ts → Nat → List Document → Reading (Values ts × List Document)
  | _, .done, _, items => .ok ((), items)
  | _, .slot _ codec _ rest, position, item :: items => do
    let value ← codec.decode item
    let (values, left) ← rest.ofItemsFrom tooFew (position + 1) items
    return ((value, values), left)
  | _, .slot _ _ none _, position, [] => .error (tooFew position)
  | _, .slot _ _ (some absent) rest, position, [] => do
    let (values, left) ← rest.ofItemsFrom tooFew (position + 1) []
    return ((absent, values), left)

/-- The values of a positional record called `title`. -/
def ofItems {ts : List Type} (slots : Slots ts) (title : String) (items : List Document) :
    Reading (Values ts) := do
  let (values, left) ← slots.ofItemsFrom (fun position ↦ .tooFew position title slots.size) 0 items
  if left.isEmpty then return values else throw (.tooMany items.length)

end Slots

/-! ## The codec -/

/-- The layout of a record type: what it is called, its slots, and how its values are made from
the values of the slots and taken apart into them. -/
structure Layout (α : Type) where
  /-- The name of the record type in messages. -/
  title : String
  /-- The types of the fields. -/
  types : List Type
  /-- The fields in the order of their declaration. -/
  slots : Slots types
  /-- The record with the given fields. -/
  make : Values types → α
  /-- The fields of a record. -/
  view : α → Values types

/-- The codec of a record type. -/
def record {α : Type} (layout : Layout α) : Codec α where
  encode a := .object (layout.slots.entries (layout.view a))
  decode
    | .record entries => (layout.slots.ofEntries entries).map layout.make
    | .list items => (layout.slots.ofItems layout.title items).map layout.make
    | other => .error (.unexpected other.shape (.record layout.title))

end Codec
end TypeDiagram
