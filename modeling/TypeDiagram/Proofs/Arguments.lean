import TypeDiagram.Proofs.RoundTrip

/-!
# The arguments of a tag

Arguments are given to a tag one after the other, and an argument may be given more than once.  The
tag does not remember how this was done.  It keeps the last value under each name, and it lists the
names in the order of their bytes; so the same last values make the same tag, and the same document.

The two halves of this are facts about dictionaries, and stand beside them.  That the last value
counts is the step `Dictionary.get?_insert`, carried through a series of calls by
`Dictionary.get?_foldl_insert`.  That nothing else counts is `Dictionary.ext_get?`: keys that ascend
leave no choice for the order of the bindings.

## What is here

* `Tag.withArguments` — a series of calls, and `lastValue?` — what the last call with a name gives.
* `Tag.argument?_withArguments` — the value of an argument after a series of calls.
* `Tag.withArguments_eq_iff` — two series of calls make the same tag of a fresh one exactly when
  they end with the same values.
-/

set_option autoImplicit false

namespace TypeDiagram

/-! ## Series of calls -/

/-- The value that the last call with a name gives, if there is such a call. -/
def lastValue? (calls : List (String × String)) (name : String) : Option String :=
  calls.reverse.lookup name

theorem lastValue?_eq_some_iff {calls : List (String × String)} {name value : String} :
    lastValue? calls name = some value ↔
      ∃ before after, calls = before ++ (name, value) :: after ∧ name ∉ after.map Prod.fst := by
  rw [lastValue?, List.lookup_eq_some_iff]
  simp only [← List.lookup_eq_none_iff, lookup_eq_none_iff_notMem]
  -- what stands after the last call in the series stands before it in the reversed one
  refine ⟨?_, ?_⟩
  · rintro ⟨after, before, hcalls, hafter⟩
    refine ⟨before.reverse, after.reverse, ?_, by simpa using hafter⟩
    simpa using congrArg List.reverse hcalls
  · rintro ⟨before, after, rfl, hafter⟩
    exact ⟨after.reverse, before.reverse, by simp, by simpa using hafter⟩

namespace Tag

/-- Give arguments one after the other. -/
def withArguments (t : Tag) (calls : List (String × String)) : Tag :=
  calls.foldl (fun t call ↦ t.withArgument call.1 call.2) t

theorem withArguments_eq (t : Tag) (calls : List (String × String)) :
    t.withArguments calls =
      ⟨t.typeName, calls.foldl (fun d call ↦ d.insert call.1 call.2) t.arguments⟩ := by
  induction calls generalizing t with
  | nil => rfl
  | cons call rest ih => exact ih (t.withArgument call.1 call.2)

/-- **The last value counts**, and a name that no call has keeps its value. -/
theorem argument?_withArguments (t : Tag) (calls : List (String × String)) (name : String) :
    (t.withArguments calls).argument? name = (lastValue? calls name).or (t.argument? name) := by
  rw [withArguments_eq]
  exact t.arguments.get?_foldl_insert calls name

theorem argument?_withArguments_named (typeName : String) (calls : List (String × String))
    (name : String) :
    ((named typeName).withArguments calls).argument? name = lastValue? calls name := by
  rw [argument?_withArguments]
  exact Option.or_none

/-- A tag is determined by its name and the values of its arguments. -/
theorem eq_iff {t u : Tag} :
    t = u ↔ t.typeName = u.typeName ∧ ∀ name, t.argument? name = u.argument? name := by
  refine ⟨?_, fun ⟨hname, harguments⟩ ↦ ?_⟩
  · rintro rfl
    exact ⟨rfl, fun _ ↦ rfl⟩
  · cases t
    cases u
    rw [Tag.mk.injEq]
    exact ⟨hname, Dictionary.ext_get? harguments⟩

/-- **Nothing but the last values counts** for what becomes of a fresh tag. -/
theorem withArguments_eq_iff {typeName : String} {calls calls' : List (String × String)} :
    (named typeName).withArguments calls = (named typeName).withArguments calls' ↔
      ∀ name, lastValue? calls name = lastValue? calls' name := by
  rw [eq_iff]
  simp only [argument?_withArguments_named]
  rw [withArguments_eq, withArguments_eq]
  exact and_iff_right rfl

/-! ## The order of the arguments -/

/-- The arguments of a tag stand in strictly ascending order of the bytes of their names. -/
theorem pairwise_utf8Bytes (t : Tag) :
    (t.arguments.bindings.map fun binding ↦ utf8Bytes binding.1).Pairwise (· < ·) :=
  List.pairwise_map.mpr (t.arguments.ascending.imp fun h ↦ bytesBefore_eq_true_iff.mp h)

/-! ## Arguments are canonical -/

/-- **The arguments of a tag are canonical, and the last write wins.**  Take any tag and give it
arguments, one after the other.  Afterwards an argument has the value of the last call with its
name, or its old value if there is no such call.  The arguments that the tag lists are those that it
has, in strictly ascending order of the UTF-8 bytes of their names, and no name stands twice.  And
two series of calls on a tag without arguments make the same tag exactly when they give the same
last value for every name; the documents of the two are equal exactly then as well. -/
theorem arguments_canonical (t : Tag) (calls : List (String × String)) :
    (∀ name, (t.withArguments calls).argument? name =
      (lastValue? calls name).or (t.argument? name)) ∧
    (∀ name value, lastValue? calls name = some value ↔
      ∃ before after, calls = before ++ (name, value) :: after ∧ name ∉ after.map Prod.fst) ∧
    (∀ name value, (name, value) ∈ (t.withArguments calls).arguments.bindings ↔
      (t.withArguments calls).argument? name = some value) ∧
    ((t.withArguments calls).arguments.bindings.map fun binding ↦ utf8Bytes binding.1).Pairwise
      (· < ·) ∧
    ((t.withArguments calls).arguments.bindings.map Prod.fst).Nodup ∧
    ∀ typeName calls',
      ((named typeName).withArguments calls = (named typeName).withArguments calls' ↔
        ∀ name, lastValue? calls name = lastValue? calls' name) ∧
      (codec.encode ((named typeName).withArguments calls) =
          codec.encode ((named typeName).withArguments calls') ↔
        ∀ name, lastValue? calls name = lastValue? calls' name) := by
  have hascending := (t.withArguments calls).arguments.ascending
  refine ⟨t.argument?_withArguments calls, fun _ _ ↦ lastValue?_eq_some_iff,
    fun name value ↦ hascending.mem_iff_lookup, pairwise_utf8Bytes _, hascending.nodup_keys,
    fun typeName calls' ↦ ⟨withArguments_eq_iff, ?_⟩⟩
  rw [codec_lawful.encode_inj, withArguments_eq_iff]

example : ((named "Table").withArguments [("é", "1"), ("z", "2"), ("é", "3")]).arguments.bindings =
    [("z", "2"), ("é", "3")] := by decide +kernel

end Tag
end TypeDiagram
