import TypeDiagram.Proofs.Locality

/-!
# Only the conjunction of the conditions matters

What a type has to satisfy in order to be kept is said in two places.  The settings list the
annotations that it has to carry, and are refused if one of these has a blank name.  The filters are
registered later, one call after the other; each of them is a condition with a label, and the label
of some depends on how many were registered before.  This file says that nothing of this can be
seen in what is built: neither where a condition comes from, nor its place among the others, nor how
often it is repeated, nor its label.

## What is here

* `Demand` — the calls by which a filter is registered, and `Inference.demand` — what they do.
* `Inference.keeps_demandAll_iff` — a type is kept if it carries the required annotations and
  satisfies every condition that was demanded.
* `Inference.build_congr` — **inferences that match alike and keep the same types build the same
  diagram, with the same log**.
* `Inference.build_value_eq_unconditional` — keeping types is selecting them in advance.

## What is not said

The labels do differ, and so do outlines: the outline of an inference shows its filters in the order
of their registration, with their labels.  It is the built diagram and its log in which nothing of
this is seen.  A condition is asked about each type on its own and answers the same each time, as
`TypeDiagram.Inference.Filter` has it; otherwise order and repetition might well be seen.

An annotation with a blank name can be demanded by a call, though not by the settings.  So to move
an annotation from the settings to a call never turns accepted settings into refused ones, but to
move one back may.  Blank are the names made of white space, and the empty one is only the simplest
case.
-/

set_option autoImplicit false

namespace TypeDiagram

namespace Settings

/-- The settings with other required annotations. -/
def withTags (s : Settings) (tags : List String) : Settings := { s with requiredTags := tags }

/-- The required annotations have no part in matching. -/
theorem relations_withTags (s : Settings) (tags : List String) (decls : List Decl) :
    (s.withTags tags).relations decls = s.relations decls := by
  rw [← Inference.flatMap_relations_encapsulations, ← Inference.flatMap_relations_encapsulations]
  rfl

end Settings

/-! ## Demands -/

/-- A call that registers a filter. -/
inductive Demand where
  /-- Keep only types with an annotation of the given name. -/
  | tag (typeName : String)
  /-- Keep only types that satisfy a condition. -/
  | condition (accepts : Decl → Bool)
  /-- Keep only types that a filter accepts. -/
  | filter (f : Filter)

/-- The condition that is demanded. -/
def Demand.accepts : Demand → Decl → Bool
  | .tag typeName => fun decl ↦ decl.hasTag typeName
  | .condition accepts => accepts
  | .filter f => f.accepts

namespace Inference

/-- Register the filter of a demand. -/
def demand (inference : Inference) : Demand → Inference
  | .tag typeName => inference.requireTag typeName
  | .condition accepts => inference.require accepts
  | .filter f => inference.filter f

/-- Register the filters of several demands, one after the other. -/
def demandAll (inference : Inference) (demands : List Demand) : Inference :=
  demands.foldl demand inference

variable {inference : Inference} {decl : Decl}

/-- Every demand registers one filter, with the condition that is demanded. -/
theorem exists_demand_eq_filter (inference : Inference) (demand : Demand) :
    ∃ label, inference.demand demand = inference.filter ⟨label, demand.accepts⟩ := by
  cases demand with
  | tag typeName => exact ⟨_, rfl⟩
  | condition accepts => exact ⟨_, rfl⟩
  | filter f => exact ⟨f.label, rfl⟩

theorem keeps_demand_iff {demand : Demand} :
    (inference.demand demand).Keeps decl ↔ inference.Keeps decl ∧ demand.accepts decl = true := by
  obtain ⟨label, heq⟩ := inference.exists_demand_eq_filter demand
  rw [heq, keeps_filter_iff]

@[simp]
theorem settings_demandAll (inference : Inference) (demands : List Demand) :
    (inference.demandAll demands).settings = inference.settings := by
  induction demands generalizing inference with
  | nil => rfl
  | cons demand rest ih =>
    obtain ⟨label, heq⟩ := inference.exists_demand_eq_filter demand
    rw [demandAll, List.foldl_cons, ← demandAll, ih, heq]
    rfl

/-- **A type is kept if it was kept before and satisfies every demand.** -/
theorem keeps_demandAll_iff {demands : List Demand} :
    (inference.demandAll demands).Keeps decl ↔
      inference.Keeps decl ∧ ∀ demand ∈ demands, demand.accepts decl = true := by
  induction demands generalizing inference with
  | nil => simp [demandAll]
  | cons demand rest ih =>
    rw [demandAll, List.foldl_cons, ← demandAll, ih, keeps_demand_iff, List.forall_mem_cons,
      and_assoc]

/-! ## Settings that are accepted -/

section

variable {s : Settings}

/-- Settings are accepted if no required annotation is blank, and there are no filters at the
beginning. -/
theorem withSettings_of_named
    (h : ∀ name ∈ s.requiredTags, ∃ c ∈ name.toList, Text.isBlankChar c = false) :
    withSettings s = .ok { settings := s } := by
  rw [withSettings, Settings.validate_eq_ok_iff.mpr h]
  rfl

/-- Other settings are refused. -/
theorem withSettings_of_blank
    (h : ¬∀ name ∈ s.requiredTags, ∃ c ∈ name.toList, Text.isBlankChar c = false) :
    withSettings s =
      .error (.invalidSettings "required_annotations must not contain empty names") := by
  have hblank : s.requiredTags.any Text.isBlank = true := by
    by_contra hany
    exact h (Settings.validate_eq_ok_iff.mp (if_neg hany))
  rw [withSettings, Settings.validate, if_pos hblank]
  rfl

theorem withSettings_eq_ok_iff :
    withSettings s = .ok inference ↔
      (∀ name ∈ s.requiredTags, ∃ c ∈ name.toList, Text.isBlankChar c = false) ∧
        inference = { settings := s } := by
  constructor
  · intro haccepted
    by_cases h : ∀ name ∈ s.requiredTags, ∃ c ∈ name.toList, Text.isBlankChar c = false
    · rw [withSettings_of_named h] at haccepted
      exact ⟨h, (Except.ok.inj haccepted).symm⟩
    · rw [withSettings_of_blank h] at haccepted
      exact nomatch haccepted
  · rintro ⟨h, rfl⟩
    exact withSettings_of_named h

end

/-! ## What an inference builds -/

/-- Without filters, a type is kept if it carries the required annotations. -/
theorem keeps_settings_iff {s : Settings} :
    ({ settings := s } : Inference).Keeps decl ↔
      ∀ name ∈ s.requiredTags, ∃ t ∈ decl.tags, t.typeName = name := by
  simp [Keeps]

/-- A type is kept by the settings and the demands, or by other settings and demands, if these ask
for the same annotations and conditions in all. -/
theorem keeps_demandAll_congr {s : Settings} {kept moved : List String}
    {demands demands' : List Demand}
    (htags : ∀ name, name ∈ s.requiredTags ↔ name ∈ kept ∨ name ∈ moved)
    (hdemands : ∀ demand, demand ∈ demands' ↔
      demand ∈ demands ∨ ∃ name ∈ moved, demand = .tag name) (decl : Decl) :
    (demandAll { settings := s.withTags kept } demands').Keeps decl ↔
      (demandAll { settings := s } demands).Keeps decl := by
  rw [keeps_demandAll_iff, keeps_demandAll_iff, keeps_settings_iff, keeps_settings_iff]
  refine ⟨fun ⟨hkept, hall⟩ ↦ ⟨fun name hname ↦ ?_, fun demand hdemand ↦ ?_⟩,
    fun ⟨hrequired, hall⟩ ↦ ⟨fun name hname ↦ ?_, fun demand hdemand ↦ ?_⟩⟩
  · rcases (htags name).mp hname with hname | hname
    · exact hkept name hname
    · exact Decl.hasTag_iff.mp (hall (.tag name) ((hdemands _).mpr (.inr ⟨name, hname, rfl⟩)))
  · exact hall demand ((hdemands demand).mpr (.inl hdemand))
  · exact hrequired name ((htags name).mpr (.inl hname))
  · rcases (hdemands demand).mp hdemand with hdemand | ⟨name, hname, rfl⟩
    · exact hall demand hdemand
    · exact Decl.hasTag_iff.mpr (hrequired name ((htags name).mpr (.inr hname)))

/-- **Inferences that match alike and keep the same types build the same diagram, with the same
log.** -/
theorem build_congr {other : Inference} {tags : List String}
    (hsettings : other.settings = inference.settings.withTags tags)
    (hkeeps : ∀ decl, other.Keeps decl ↔ inference.Keeps decl) (decls : List Decl) :
    other.build decls = inference.build decls := by
  have hsame : other.keeps = inference.keeps := by
    funext decl
    rw [Bool.eq_iff_iff, keeps_iff, keeps_iff, hkeeps]
  have hfound : ∀ kept : List Decl,
      encapsulations other.settings kept = encapsulations inference.settings kept := by
    intro kept
    rw [hsettings]
    rfl
  simp only [build, hsame, hfound]

/-- **Keeping types is selecting them in advance.**  The diagram is the one that is built without
any conditions from the types that satisfy them. -/
theorem build_value_eq_unconditional (inference : Inference) (decls : List Decl) :
    (inference.build decls).value =
      (({ settings := inference.settings.withTags [] } : Inference).build
        (decls.filter fun decl ↦ inference.Keeps decl)).value := by
  have hall : ∀ decl ∈ decls.filter (fun decl ↦ inference.Keeps decl),
      ({ settings := inference.settings.withTags [] } : Inference).Keeps decl := by
    intro decl _
    rw [keeps_settings_iff]
    exact List.forall_mem_nil _
  rw [build_value, build_value_of_keeps hall, Settings.relations_withTags]

/-- **Only the conjunction of the conditions matters.**  Settings are accepted exactly when each of
the required annotations has a character that is not white space; other settings are refused.  Take
an inference with accepted settings, and let it have any demands.

Some of the required annotations may be demanded by calls instead of by the settings.  The required
annotations that stay in the settings, and the demands, may be put in any order and be repeated any
number of times.  The changed settings are accepted as well, and what is built from any list of
types is the same, together with the log.

The diagram is also the one that is built by the same rules of matching, but without required
annotations and without filters, from those of the types that carry every required annotation and
satisfy every demand. -/
theorem only_conjunction_matters (s : Settings) :
    ((∀ name ∈ s.requiredTags, ∃ c ∈ name.toList, Text.isBlankChar c = false) →
      withSettings s = .ok { settings := s }) ∧
    ((¬∀ name ∈ s.requiredTags, ∃ c ∈ name.toList, Text.isBlankChar c = false) →
      withSettings s =
        .error (.invalidSettings "required_annotations must not contain empty names")) ∧
    ∀ inference, withSettings s = .ok inference → ∀ demands,
      (∀ (kept moved : List String) (demands' : List Demand),
        (∀ name, name ∈ s.requiredTags ↔ name ∈ kept ∨ name ∈ moved) →
        (∀ demand, demand ∈ demands' ↔
          demand ∈ demands ∨ ∃ name ∈ moved, demand = .tag name) →
        ∃ inference', withSettings (s.withTags kept) = .ok inference' ∧
          ∀ decls,
            (inference'.demandAll demands').build decls =
              (inference.demandAll demands).build decls) ∧
      ∃ unconditional, withSettings (s.withTags []) = .ok unconditional ∧
        ∀ decls,
          ((inference.demandAll demands).build decls).value =
            (unconditional.build (decls.filter fun decl ↦
              s.requiredTags.all decl.hasTag &&
                demands.all fun demand ↦ demand.accepts decl)).value := by
  refine ⟨withSettings_of_named, withSettings_of_blank, fun inference haccepted demands ↦ ?_⟩
  obtain ⟨hnames, rfl⟩ := withSettings_eq_ok_iff.mp haccepted
  refine ⟨fun kept moved demands' htags hdemands ↦ ?_, ?_⟩
  · have hkept : ∀ name ∈ kept, ∃ c ∈ name.toList, Text.isBlankChar c = false :=
      fun name hname ↦ hnames name ((htags name).mpr (.inl hname))
    have hsettings : (demandAll { settings := s.withTags kept } demands').settings =
        (demandAll { settings := s } demands).settings.withTags kept := by
      rw [settings_demandAll, settings_demandAll]
    refine ⟨_, withSettings_eq_ok_iff.mpr ⟨hkept, rfl⟩, build_congr hsettings ?_⟩
    exact keeps_demandAll_congr htags hdemands
  · refine ⟨_, withSettings_eq_ok_iff.mpr ⟨List.forall_mem_nil _, rfl⟩, fun decls ↦ ?_⟩
    have hkeeps : ∀ decl, decide ((demandAll { settings := s } demands).Keeps decl) =
        (s.requiredTags.all decl.hasTag && demands.all fun demand ↦ demand.accepts decl) := by
      intro decl
      rw [Bool.eq_iff_iff]
      simp [keeps_demandAll_iff, keeps_settings_iff, Decl.hasTag_iff]
    rw [build_value_eq_unconditional, settings_demandAll]
    simp only [hkeeps]

theorem only_conjunction_matters_entities :
    let s : Settings := { requiredTags := ["Entity", "Audited"] }
    let app : Demand := .condition fun decl ↦ decl.package = "app"
    let shared : Demand := .filter ⟨"shared", fun decl ↦ !decl.fields.isEmpty⟩
    let entity := fun name ↦
      (((Decl.named name "app").withTag (.named "Entity")).withTag (.named "Audited")).withField
        (.named "owner" "User")
    let decls : List Decl :=
      [entity "User", (entity "Draft").withField (.named "home" "Address"), entity "Order",
        (Decl.named "Address" "app").withTag (.named "Entity")]
    ∃ inference inference' unconditional,
      withSettings s = .ok inference ∧
      (∀ name, name ∈ s.requiredTags ↔ name ∈ ["Entity", "Entity"] ∨ name ∈ ["Audited"]) ∧
      (∀ demand, demand ∈ [shared, .tag "Audited", app, shared] ↔
        demand ∈ [app, shared] ∨ ∃ name ∈ ["Audited"], demand = .tag name) ∧
      withSettings (s.withTags ["Entity", "Entity"]) = .ok inference' ∧
      (inference'.demandAll [shared, .tag "Audited", app, shared]).build decls =
        (inference.demandAll [app, shared]).build decls ∧
      ((inference.demandAll [app, shared]).build decls).value.relations =
        [⟨1, 0, .encapsulates⟩, ⟨2, 0, .encapsulates⟩] ∧
      withSettings (s.withTags []) = .ok unconditional ∧
      ((inference.demandAll [app, shared]).build decls).value =
        (unconditional.build (decls.filter fun decl ↦
          s.requiredTags.all decl.hasTag &&
            [app, shared].all fun demand ↦ demand.accepts decl)).value ∧
      withSettings (s.withTags ["Entity", "\u00a0 "]) =
        .error (.invalidSettings "required_annotations must not contain empty names") := by
  intro s app shared entity decls
  have hnames : s.validate = .ok () := if_neg (by decide +kernel)
  have haccepted : withSettings s = .ok { settings := s } :=
    withSettings_eq_ok_iff.mpr ⟨Settings.validate_eq_ok_iff.mp hnames, rfl⟩
  have htags : ∀ name,
      name ∈ s.requiredTags ↔ name ∈ ["Entity", "Entity"] ∨ name ∈ ["Audited"] := by
    simp [s]
  have hdemands : ∀ demand, demand ∈ [shared, .tag "Audited", app, shared] ↔
      demand ∈ [app, shared] ∨ ∃ name ∈ ["Audited"], demand = .tag name := by
    intro demand
    simp only [List.mem_cons, List.not_mem_nil, or_false, exists_eq_left]
    tauto
  obtain ⟨-, -, hbuild⟩ := only_conjunction_matters s
  obtain ⟨hmoved, unconditional, hunconditional, hvalue⟩ := hbuild _ haccepted [app, shared]
  obtain ⟨inference', haccepted', hsame⟩ := hmoved _ _ _ htags hdemands
  refine ⟨_, inference', unconditional, haccepted, htags, hdemands, haccepted', hsame decls, ?_,
    hunconditional, hvalue decls, ?_⟩
  · decide +kernel
  · obtain ⟨-, hrefused, -⟩ := only_conjunction_matters (s.withTags ["Entity", "\u00a0 "])
    refine hrefused fun hnames ↦ ?_
    have hvalid := Settings.validate_eq_ok_iff.mpr hnames
    rw [Settings.validate, if_pos (by decide +kernel)] at hvalid
    exact nomatch hvalid

end Inference
end TypeDiagram
