import TypeDiagram.Document.Fault

/-!
# Codecs

A codec ties a type of values to documents: it writes every value as a document and reads a value
from a document or says what is wrong with it.  This file has the codecs for single values, lists,
dictionaries and choices; `TypeDiagram.Codec.Record` adds records.  Larger codecs are put together
from smaller ones, so that each rule about reading is stated once and holds at every level of a
document.

A codec is **lawful** when reading undoes writing.  Reading accepts more than what is written: a
choice may also be given by a record with the choice as its only key, and a record by position.
-/

set_option autoImplicit false

namespace TypeDiagram

/-- What reading a document gives: a value, or the first fault. -/
abbrev Reading (α : Type) := Except Fault α

/-- A way to write the values of a type as documents and to read them back. -/
structure Codec (α : Type) where
  /-- The document of a value. -/
  encode : α → Document
  /-- The value of a document. -/
  decode : Document → Reading α

namespace Codec

variable {α : Type}

/-- Reading undoes writing. -/
def Lawful (c : Codec α) : Prop := ∀ a, c.decode (c.encode a) = .ok a

/-- Different values are written differently. -/
theorem Lawful.encode_inj {c : Codec α} (h : c.Lawful) {a b : α} :
    c.encode a = c.encode b ↔ a = b := by
  refine ⟨fun hab ↦ ?_, congrArg c.encode⟩
  have hread := h a
  rw [hab, h b] at hread
  exact (Except.ok.inj hread).symm

/-! ## Single values -/

/-- A text. -/
def text : Codec String where
  encode := .text
  decode
    | .text value => .ok value
    | other => .error (.unexpected other.shape .text)

/-- A truth value. -/
def flag : Codec Bool where
  encode := .flag
  decode
    | .flag value => .ok value
    | other => .error (.unexpected other.shape .flag)

/-- A value that may be absent, in which case it is written as `null`. -/
def optional (c : Codec α) : Codec (Option α) where
  encode
    | none => .null
    | some a => c.encode a
  decode
    | .null => .ok none
    | other => (c.decode other).map some

theorem text_lawful : text.Lawful := fun _ ↦ rfl

theorem flag_lawful : flag.Lawful := fun _ ↦ rfl

/-- An absent value can be told from the others if none of these is written as `null`. -/
theorem Lawful.optional {c : Codec α} (h : c.Lawful) (hnull : ∀ a, c.encode a ≠ .null) :
    c.optional.Lawful := by
  intro a
  cases a with
  | none => rfl
  | some a =>
    have hsome : c.optional.decode (c.encode a) = (c.decode (c.encode a)).map some := by
      cases hcase : c.encode a with
      | null => exact absurd hcase (hnull a)
      | _ => rfl
    show c.optional.decode (c.encode a) = .ok (some a)
    rw [hsome, h a]
    rfl

/-! ## Lists -/

/-- Read items one after the other, up to the first fault. -/
def decodeItems (c : Codec α) : List Document → Reading (List α)
  | [] => .ok []
  | item :: rest => do
    let a ← c.decode item
    let as ← c.decodeItems rest
    return a :: as

/-- A list of values. -/
def list (c : Codec α) : Codec (List α) where
  encode as := .list (as.map c.encode)
  decode
    | .list items => c.decodeItems items
    | other => .error (.unexpected other.shape .list)

theorem decodeItems_map_encode {c : Codec α} (h : c.Lawful) (as : List α) :
    c.decodeItems (as.map c.encode) = .ok as := by
  induction as with
  | nil => rfl
  | cons a as ih =>
    rw [List.map_cons, decodeItems, h a, ih]
    rfl

theorem Lawful.list {c : Codec α} (h : c.Lawful) : c.list.Lawful :=
  fun as ↦ decodeItems_map_encode h as

/-! ## Dictionaries -/

/-- Read the entries of a record one after the other into a dictionary, up to the first fault. -/
def decodeEntries (c : Codec α) : List (String × Document) → Dictionary α → Reading (Dictionary α)
  | [], d => .ok d
  | entry :: rest, d => do
    let a ← c.decode entry.2
    c.decodeEntries rest (d.insert entry.1 a)

/-- A dictionary of values. -/
def dictionary (c : Codec α) : Codec (Dictionary α) where
  encode d := .record (d.bindings.map fun binding ↦ (binding.1, c.encode binding.2))
  decode
    | .record entries => c.decodeEntries entries .empty
    | other => .error (.unexpected other.shape .dictionary)

/-- Reading entries that were written binds their values in turn. -/
theorem decodeEntries_map_encode {c : Codec α} (h : c.Lawful) (bindings : List (String × α))
    (d : Dictionary α) :
    c.decodeEntries (bindings.map fun binding ↦ (binding.1, c.encode binding.2)) d =
      .ok (bindings.foldl (fun d binding ↦ d.insert binding.1 binding.2) d) := by
  induction bindings generalizing d with
  | nil => rfl
  | cons binding rest ih =>
    rw [List.map_cons, decodeEntries, h binding.2, List.foldl_cons, ← ih]
    rfl

theorem Lawful.dictionary {c : Codec α} (h : c.Lawful) : c.dictionary.Lawful := by
  intro d
  have hread := decodeEntries_map_encode h d.bindings .empty
  have hself : d.bindings.foldl (fun d binding ↦ d.insert binding.1 binding.2) .empty = d :=
    d.ofList_bindings
  exact hread.trans (congrArg Except.ok hself)

/-! ## Choices -/

/-- One of finitely many values, each with a name of its own. -/
structure Choices (α : Type) where
  /-- The values in the order in which a message lists them. -/
  all : List α
  /-- The name of a value. -/
  name : α → String

/-- The value with a given name. -/
def Choices.find (choices : Choices α) (name : String) : Reading α :=
  match choices.all.find? fun a ↦ choices.name a = name with
  | some a => .ok a
  | none => .error (.unknownChoice name (choices.all.map choices.name))

/-- A choice is written as its name.  It may also be read from a record with the name as its only
key, over `null`. -/
def choice (choices : Choices α) : Codec α where
  encode a := .text (choices.name a)
  decode
    | .text name => choices.find name
    | .record [(name, content)] => do
      let a ← choices.find name
      match content with
      | .null => return a
      | other => throw (.unexpected other.shape .nothing)
    | .record _ => .error .notSingle
    | other => .error (.unexpected other.shape .choice)

theorem choice_lawful {choices : Choices α} (h : ∀ a, choices.find (choices.name a) = .ok a) :
    (choice choices).Lawful := h

end Codec
end TypeDiagram
