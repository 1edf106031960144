import TypeDiagram.Codec.Record

/-!
# Members of a declared type

The parts of a declaration: the tags on it, its fields, and its methods with their parameters.
Each type of part stands here with its small operations and the codec that reads and writes it.

A `Tag` is what source code calls an annotation: a name, with arguments by name.

Only two things about a member matter for relations between types: the name of a tag, which
decides whether a type is kept, and the type names that a field mentions.  Everything else is
carried along for whoever draws the diagram.
-/

set_option autoImplicit false

namespace TypeDiagram

/-! ## Visibility -/

/-- Who may use a member. -/
inductive Visibility where
  /-- Any type. -/
  | everyone
  /-- The declaring type alone. -/
  | owner
  /-- The declaring type and the types that extend it. -/
  | heirs
  /-- The types of the same package. -/
  | samePackage
deriving DecidableEq, Inhabited

namespace Visibility

/-- The name of a visibility in documents. -/
def name : Visibility → String
  | .everyone => "Public"
  | .owner => "Private"
  | .heirs => "Protected"
  | .samePackage => "Package"

/-- The codec of visibilities. -/
def codec : Codec Visibility :=
  .choice ⟨[.everyone, .owner, .heirs, .samePackage], name⟩

end Visibility

/-! ## Tags -/

/-- An annotation on a declared type, with arguments by name. -/
structure Tag where
  /-- The name of the annotation. -/
  typeName : String
  /-- The arguments, each under its name. -/
  arguments : Dictionary String
deriving DecidableEq

namespace Tag

/-- A tag without arguments. -/
def named (typeName : String) : Tag := ⟨typeName, .empty⟩

/-- Give an argument.  An argument of the same name is replaced. -/
def withArgument (t : Tag) (name value : String) : Tag :=
  { t with arguments := t.arguments.insert name value }

/-- The value of an argument, if it is given. -/
def argument? (t : Tag) (name : String) : Option String := t.arguments.get? name

/-- The layout of tags in documents. -/
def layout : Codec.Layout Tag where
  title := "Annotation"
  types := [String, Dictionary String]
  slots :=
    .required "type_name" .text <|
    .defaulted "arguments" (.dictionary .text) .empty .done
  make := fun (typeName, arguments, _) ↦ ⟨typeName, arguments⟩
  view := fun t ↦ (t.typeName, t.arguments, ())

/-- The codec of tags. -/
def codec : Codec Tag := .record layout

end Tag

/-! ## Fields -/

/-- A field of a declared type. -/
structure Field where
  name : String
  /-- The declared type of the field, as it is written. -/
  typeName : String
  /-- The arguments of the declared type, as they are written. -/
  typeArguments : List String
  visibility : Visibility
  /-- Whether a drawing should show the field. -/
  shown : Bool
deriving DecidableEq

namespace Field

/-- A field that everyone may use, shown, without type arguments. -/
def named (name typeName : String) : Field := ⟨name, typeName, [], .everyone, true⟩

/-- Append a type argument. -/
def withTypeArgument (f : Field) (typeName : String) : Field :=
  { f with typeArguments := f.typeArguments ++ [typeName] }

/-- Set the visibility. -/
def withVisibility (f : Field) (visibility : Visibility) : Field :=
  { f with visibility := visibility }

/-- Leave the field out of drawings. -/
def hide (f : Field) : Field := { f with shown := false }

/-- The type names that the field mentions: its declared type, then the type arguments. -/
def referencedNames (f : Field) : List String := f.typeName :: f.typeArguments

/-- The field as a line of text. -/
def label (f : Field) : String := f.name ++ " : " ++ f.typeName

/-- The layout of fields in documents. -/
def layout : Codec.Layout Field where
  title := "Field"
  types := [String, String, List String, Visibility, Bool]
  slots :=
    .required "name" .text <|
    .required "type_name" .text <|
    .defaulted "type_arguments" (.list .text) [] <|
    .defaulted "visibility" Visibility.codec .everyone <|
    .defaulted "show" .flag true .done
  make := fun (name, typeName, typeArguments, visibility, shown, _) ↦
    ⟨name, typeName, typeArguments, visibility, shown⟩
  view := fun f ↦ (f.name, f.typeName, f.typeArguments, f.visibility, f.shown, ())

/-- The codec of fields. -/
def codec : Codec Field := .record layout

end Field

/-! ## Methods -/

/-- A parameter of a method. -/
structure Parameter where
  name : String
  typeName : String
deriving DecidableEq

namespace Parameter

/-- The layout of parameters in documents. -/
def layout : Codec.Layout Parameter where
  title := "Parameter"
  types := [String, String]
  slots := .required "name" .text <| .required "type_name" .text .done
  make := fun (name, typeName, _) ↦ ⟨name, typeName⟩
  view := fun p ↦ (p.name, p.typeName, ())

/-- The codec of parameters. -/
def codec : Codec Parameter := .record layout

end Parameter

/-- A method of a declared type. -/
structure Method where
  name : String
  /-- The type that the method returns; empty when it returns nothing. -/
  returnTypeName : String
  parameters : List Parameter
  visibility : Visibility
deriving DecidableEq

namespace Method

/-- A method that everyone may use, without parameters. -/
def named (name returnTypeName : String) : Method := ⟨name, returnTypeName, [], .everyone⟩

/-- Append a parameter. -/
def withParameter (m : Method) (parameter : Parameter) : Method :=
  { m with parameters := m.parameters ++ [parameter] }

/-- Set the visibility. -/
def withVisibility (m : Method) (visibility : Visibility) : Method :=
  { m with visibility := visibility }

/-- The layout of methods in documents. -/
def layout : Codec.Layout Method where
  title := "Method"
  types := [String, String, List Parameter, Visibility]
  slots :=
    .required "name" .text <|
    .defaulted "return_type_name" .text "" <|
    .defaulted "parameters" (.list Parameter.codec) [] <|
    .defaulted "visibility" Visibility.codec .everyone .done
  make := fun (name, returnTypeName, parameters, visibility, _) ↦
    ⟨name, returnTypeName, parameters, visibility⟩
  view := fun m ↦ (m.name, m.returnTypeName, m.parameters, m.visibility, ())

/-- The codec of methods. -/
def codec : Codec Method := .record layout

end Method
end TypeDiagram
