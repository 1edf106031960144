import TypeDiagram.Codec.Record
import TypeDiagram.Error
import TypeDiagram.Text.Outline

/-!
# Settings of an inference

How the names in fields are matched with declared types, and which annotations a type has to carry
in order to be part of a diagram at all.
-/

set_option autoImplicit false

namespace TypeDiagram

/-- How a name in a field is matched with a declared type. -/
inductive MatchMode where
  /-- By the simple name alone. -/
  | simpleName
  /-- By the qualified name, or by a simple name that is visible from the package. -/
  | packageAware
deriving DecidableEq

namespace MatchMode

/-- The name of a mode in documents. -/
def name : MatchMode → String
  | .simpleName => "SimpleName"
  | .packageAware => "PackageAware"

/-- The codec of modes. -/
def codec : Codec MatchMode := .choice ⟨[.simpleName, .packageAware], name⟩

end MatchMode

/-- The settings of an inference. -/
structure Settings where
  /-- How names are matched with types. -/
  matchMode : MatchMode := .simpleName
  /-- Whether the type arguments of a field count, beside its declared type. -/
  matchTypeArguments : Bool := true
  /-- The annotations that a type has to carry, all of them. -/
  requiredTags : List String := []
deriving DecidableEq, Inhabited

namespace Settings

/-- The settings that match by package where the package is known. -/
def packageAware : Settings := { matchMode := .packageAware }

/-- Settings are refused if they require an annotation with a blank name. -/
def validate (s : Settings) : Except Error Unit :=
  if s.requiredTags.any Text.isBlank then
    .error (.invalidSettings "required_annotations must not contain empty names")
  else .ok ()

/-- Settings are accepted exactly when every required annotation has a character in its name that
is not white space. -/
theorem validate_eq_ok_iff {s : Settings} :
    s.validate = .ok () ↔
      ∀ name ∈ s.requiredTags, ∃ c ∈ name.toList, Text.isBlankChar c = false := by
  unfold validate
  split
  · next h =>
    obtain ⟨name, hname, hblank⟩ := List.any_eq_true.mp h
    refine ⟨fun h ↦ (nomatch h), fun h ↦ ?_⟩
    obtain ⟨c, hc, hcv⟩ := h name hname
    exact absurd (Text.isBlank_iff.mp hblank c hc) (by simp [hcv])
  · next h =>
    refine ⟨fun _ name hname ↦ ?_, fun _ ↦ rfl⟩
    have hnb : Text.isBlank name = false := by
      have := fun hb ↦ h (List.any_eq_true.mpr ⟨name, hname, hb⟩)
      simpa using this
    simpa [Text.isBlank] using hnb

/-! ## Documents and outlines -/

/-- The layout of settings in documents. -/
def layout : Codec.Layout Settings where
  title := "InferenceConfig"
  types := [MatchMode, Bool, List String]
  slots :=
    .required "match_mode" MatchMode.codec <|
    .required "match_type_arguments" .flag <|
    .defaulted "required_annotations" (.list .text) [] .done
  make := fun (matchMode, matchTypeArguments, requiredTags, _) ↦
    ⟨matchMode, matchTypeArguments, requiredTags⟩
  view := fun s ↦ (s.matchMode, s.matchTypeArguments, s.requiredTags, ())

/-- The codec of settings. -/
def codec : Codec Settings := .record layout

/-- The outline of settings. -/
def outline (s : Settings) : Text.Outline :=
  .record "InferenceConfig"
    [.labelled "match_mode" (.word s.matchMode.name),
     .labelled "match_type_arguments" (.word (if s.matchTypeArguments then "true" else "false")),
     .labelled "required_annotations"
       (.list (s.requiredTags.map fun name ↦ .word (Text.quoted name)))]
    false

end Settings
end TypeDiagram
