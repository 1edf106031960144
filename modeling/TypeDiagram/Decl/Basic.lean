import TypeDiagram.Decl.Member

/-!
# Declared types

A `Decl` describes a class, an interface or an enumeration as it was found in some source: its
name and package, its members, and the names of the types that it extends, implements or is nested
in.  All these names are plain text.  Nothing is resolved here: which declaration a name in a field
stands for is decided by `TypeDiagram.Inference`.

A name need not be unique, not even together with its package.
-/

set_option autoImplicit false

namespace TypeDiagram

/-- The kinds of declared types. -/
inductive Kind where
  | classType
  | interfaceType
  | enumType
deriving DecidableEq, Inhabited

namespace Kind

/-- The name of a kind in documents. -/
def name : Kind → String
  | .classType => "Class"
  | .interfaceType => "Interface"
  | .enumType => "Enum"

/-- The codec of kinds. -/
def codec : Codec Kind := .choice ⟨[.classType, .interfaceType, .enumType], name⟩

end Kind

/-- A declared type. -/
structure Decl where
  /-- The simple name. -/
  name : String
  /-- The package; empty when it is not known. -/
  package : String
  kind : Kind
  fields : List Field
  methods : List Method
  /-- The names of the types that this one extends. -/
  superTypeNames : List String
  /-- The names of the interfaces that this type implements. -/
  interfaceNames : List String
  /-- The name of the type in which this one is nested. -/
  parentType : Option String
  /-- The annotations on the type. -/
  tags : List Tag
  /-- The documentation comment. -/
  doc : Option String
  /-- The names that the source imports: qualified names, or a package followed by `.*`. -/
  imports : List String
deriving DecidableEq

namespace Decl

/-- A class with no members. -/
def named (name package : String) : Decl where
  name := name
  package := package
  kind := .classType
  fields := []
  methods := []
  superTypeNames := []
  interfaceNames := []
  parentType := none
  tags := []
  doc := none
  imports := []

/-! ## Adding parts -/

/-- Set the kind. -/
def withKind (d : Decl) (kind : Kind) : Decl := { d with kind := kind }

/-- Append a field. -/
def withField (d : Decl) (field : Field) : Decl := { d with fields := d.fields ++ [field] }

/-- Append a method. -/
def withMethod (d : Decl) (method : Method) : Decl := { d with methods := d.methods ++ [method] }

/-- Append the name of an extended type. -/
def withSuperType (d : Decl) (name : String) : Decl :=
  { d with superTypeNames := d.superTypeNames ++ [name] }

/-- Append the name of an implemented interface. -/
def withInterface (d : Decl) (name : String) : Decl :=
  { d with interfaceNames := d.interfaceNames ++ [name] }

/-- Set the name of the enclosing type. -/
def withParentType (d : Decl) (name : String) : Decl := { d with parentType := some name }

/-- Append a tag. -/
def withTag (d : Decl) (tag : Tag) : Decl := { d with tags := d.tags ++ [tag] }

/-- Set the documentation comment. -/
def withDoc (d : Decl) (doc : String) : Decl := { d with doc := some doc }

/-- Append an import. -/
def withImport (d : Decl) (name : String) : Decl := { d with imports := d.imports ++ [name] }

/-! ## Names and tags -/

/-- The name with its package in front, or alone when the package is not known. -/
def qualifiedName (d : Decl) : String :=
  if d.package = "" then d.name else d.package ++ "." ++ d.name

theorem qualifiedName_of_unknown {d : Decl} (h : d.package = "") : d.qualifiedName = d.name :=
  if_pos h

theorem toList_qualifiedName {d : Decl} (h : d.package ≠ "") :
    d.qualifiedName.toList = d.package.toList ++ '.' :: d.name.toList := by
  rw [qualifiedName, if_neg h, String.toList_append, String.toList_append, List.append_assoc]
  rfl

/-- Does the type carry a tag of this name? -/
def hasTag (d : Decl) (typeName : String) : Bool := d.tags.any fun t ↦ t.typeName = typeName

theorem hasTag_iff {d : Decl} {typeName : String} :
    d.hasTag typeName = true ↔ ∃ t ∈ d.tags, t.typeName = typeName := by
  simp [hasTag]

/-! ## Documents -/

/-- The layout of declared types in documents. -/
def layout : Codec.Layout Decl where
  title := "Type"
  types := [String, String, Kind, List Field, List Method, List String, List String, Option String,
    List Tag, Option String, List String]
  slots :=
    .required "name" .text <|
    .defaulted "package" .text "" <|
    .defaulted "kind" Kind.codec .classType <|
    .defaulted "fields" (.list Field.codec) [] <|
    .defaulted "methods" (.list Method.codec) [] <|
    .defaulted "super_type_names" (.list .text) [] <|
    .defaulted "interface_names" (.list .text) [] <|
    .defaulted "parent_type" (.optional .text) none <|
    .defaulted "annotations" (.list Tag.codec) [] <|
    .defaulted "doc" (.optional .text) none <|
    .defaulted "imports" (.list .text) [] .done
  make := fun (name, package, kind, fields, methods, superTypeNames, interfaceNames, parentType,
      tags, doc, imports, _) ↦
    ⟨name, package, kind, fields, methods, superTypeNames, interfaceNames, parentType, tags, doc,
      imports⟩
  view := fun d ↦ (d.name, d.package, d.kind, d.fields, d.methods, d.superTypeNames,
    d.interfaceNames, d.parentType, d.tags, d.doc, d.imports, ())

/-- The codec of declared types. -/
def codec : Codec Decl := .record layout

end Decl
end TypeDiagram
