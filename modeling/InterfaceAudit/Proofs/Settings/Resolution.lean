import InterfaceAudit.Proofs.Json.Fields
import InterfaceAudit.Settings.Sources

/-!
Resolution of settings.
Settings are found exactly where every source can be read and every field is valid. Then a field of
a section is what the section finds under its name, in the values that are given or in a variable.
-/

namespace InterfaceAudit.Settings

/-! ### Checked values -/

namespace Checked

variable {Value Result : Type}

/-- Two parts are valid together when both of them are. -/
theorem seq_eq_valid_iff {build : Checked (Value → Result)} {part : Checked Value}
    {result : Result} :
    build <*> part = .valid result ↔
      ∃ make value, build = .valid make ∧ part = .valid value ∧ make value = result := by
  change apply build (fun _ => part) = .valid result ↔ _
  cases build <;> cases part <;> simp [apply]

/-- A changed value is valid when the value is. -/
theorem map_eq_valid_iff {change : Value → Result} {part : Checked Value} {result : Result} :
    change <$> part = .valid result ↔ ∃ value, part = .valid value ∧ change value = result := by
  change apply (.valid change) (fun _ => part) = .valid result ↔ _
  cases part <;> simp [apply]

theorem under_eq_valid_iff {key : Key} {part : Checked Value} {value : Value} :
    part.under key = .valid value ↔ part = .valid value := by
  cases part <;> simp [under]

end Checked

/-- Two steps succeed when the second one succeeds on the value of the first. -/
theorem bind_eq_ok_iff {Value Result : Type} {first : Except Failure Value}
    {next : Value → Except Failure Result} {result : Result} :
    (first >>= next) = .ok result ↔ ∃ value, first = .ok value ∧ next value = .ok result := by
  cases first <;> simp [bind, Except.bind]

section Fields

variable {Value : Type} {fields others : List (String × Json)} {name : String}
variable {read : Json → Checked Value} {default : Value}

theorem field_congr (same : (Json.object fields).field? name = (Json.object others).field? name) :
    field fields name read default = field others name read default := by
  rw [field, field, same]

/-- A field that is given has the value that is read from it. -/
theorem field_of_valid {given : Json} {value : Value}
    (present : (Json.object fields).field? name = some given)
    (isValid : read given = .valid value) :
    field fields name read default = .valid value := by
  rw [field, present]
  exact Checked.under_eq_valid_iff.mpr isValid

/-- There are no other fields when every name is known. -/
theorem othersIn_eq_valid_iff {known : List String} :
    othersIn fields known = .valid () ↔
      ∀ name, ((Json.object fields).field? name).isSome → name ∈ known := by
  have noOthers : (fields.map Prod.fst).filter (fun name => !known.contains name) = [] ↔
      ∀ name, ((Json.object fields).field? name).isSome → name ∈ known := by
    simp only [Json.field?_isSome_iff, List.filter_eq_nil_iff, Bool.not_eq_true,
      Bool.not_eq_false', List.contains_iff_mem]
  rw [← noOthers, othersIn]
  split
  · next none => exact iff_of_true rfl none
  · next some => exact iff_of_false (by simp) some

end Fields

/-! ### Variables -/

section Variables

variable {source : Source} {get? : String → Option String} {name text : String}
variable {form : Spelling} {fields : List (String × Spelling)} {found : List (String × Json)}

/-- A source is gathered field by field, and a field that it does not know is left out. -/
theorem gather_cons_eq_ok_iff :
    gather source get? ((name, form) :: fields) = .ok found ↔
      (get? name = none ∧ gather source get? fields = .ok found) ∨
        ∃ text value rest, get? name = some text ∧ decode name source text form = .ok value ∧
          gather source get? fields = .ok rest ∧
          (value.map fun value => (name, value)).toList ++ rest = found := by
  rw [gather]
  cases get? name with
  | none => simp
  | some text =>
    simp only [bind_eq_ok_iff, reduceCtorEq, false_and, false_or, Option.some.injEq]
    simp [pure, Except.pure]

/-- A source is asked for the names of the fields only. -/
theorem gather_congr {other : String → Option String}
    (same : ∀ field ∈ fields, get? field.1 = other field.1) :
    gather source get? fields = gather source other fields := by
  induction fields with
  | nil => rfl
  | cons field fields inductionHypothesis =>
    obtain ⟨first, others⟩ := List.forall_mem_cons.mp same
    rw [gather, gather, first, inductionHypothesis others]

/-- A field without a variable is not found. -/
theorem field?_of_gather (isRead : gather source get? fields = .ok found)
    (absent : get? name = none) : (Json.object found).field? name = none := by
  induction fields generalizing found with
  | nil =>
    obtain rfl := Except.ok.inj isRead
    rfl
  | cons field fields inductionHypothesis =>
    obtain ⟨-, isRest⟩ | ⟨text, value, rest, given, -, isRest, rfl⟩ :=
      gather_cons_eq_ok_iff.mp isRead
    · exact inductionHypothesis isRest
    · have apart : field.1 ≠ name := fun same => by simp [same, absent] at given
      rw [Json.field?_append, inductionHypothesis isRest, Option.or_none]
      cases value with
      | none => rfl
      | some value => exact (Json.field?_singleton ..).trans (if_neg apart)

theorem decode_eq_error (notJson : Json.read? text = none) :
    decode name source text .json = .error (.notJson name source) := by
  rw [decode, notJson]

/-- Where variables are read, each variable that has to be JSON is. -/
theorem read?_ne_none_of_gather (isRead : gather source get? fields = .ok found)
    (member : (name, .json) ∈ fields) (given : get? name = some text) :
    Json.read? text ≠ none := by
  intro notJson
  induction fields generalizing found with
  | nil => contradiction
  | cons field fields inductionHypothesis =>
    rcases gather_cons_eq_ok_iff.mp isRead with
      ⟨absent, isRest⟩ | ⟨_, _, _, present, decoded, isRest, -⟩
    · rcases List.mem_cons.mp member with rfl | later
      · simp [given] at absent
      · exact inductionHypothesis isRest later
    · rcases List.mem_cons.mp member with rfl | later
      · rw [given, Option.some_inj] at present
        rw [← present, decode_eq_error notJson] at decoded
        contradiction
      · exact inductionHypothesis isRest later

/-- A variable that has to be JSON and is not is the one that is reported, when the others are
read. -/
theorem gather_eq_error {other : String → Option String}
    (isRead : gather source get? fields = .ok found) (member : (name, .json) ∈ fields)
    (spelled : ∀ field ∈ fields, field.1 = name → field.2 = .json) (given : other name = some text)
    (notJson : Json.read? text = none)
    (same : ∀ field ∈ fields, field.1 ≠ name → other field.1 = get? field.1) :
    gather source other fields = .error (.notJson name source) := by
  induction fields generalizing found with
  | nil => contradiction
  | cons field fields inductionHypothesis =>
    obtain ⟨first, form⟩ := field
    by_cases here : first = name
    · subst here
      obtain rfl : form = .json := spelled _ List.mem_cons_self rfl
      rw [gather, given]
      show decode first source text .json >>= _ = _
      rw [decode_eq_error notJson]
      rfl
    · have later : (name, Spelling.json) ∈ fields :=
        (List.mem_cons.mp member).resolve_left fun isFirst => here (congrArg Prod.fst isFirst).symm
      obtain ⟨sameFirst, sameOthers⟩ := List.forall_mem_cons.mp same
      have failure (rest : List (String × Json))
          (isRest : gather source get? fields = .ok rest) :
          gather source other fields = .error (.notJson name source) :=
        inductionHypothesis isRest later (List.forall_mem_cons.mp spelled).2 sameOthers
      rw [gather, sameFirst here]
      rcases gather_cons_eq_ok_iff.mp isRead with
        ⟨absent, isRest⟩ | ⟨text, value, rest, present, decoded, isRest, -⟩
      · rw [absent]
        exact failure found isRest
      · rw [present]
        show decode first source text form >>= _ = _
        rw [decoded]
        show gather source other fields >>= _ = _
        rw [failure rest isRest]
        rfl

end Variables

/-! ### Sections -/

section Sections

variable {Value : Type} {part : Section Value} {environment : Environment} {value : Value}

/-- A valid value, or the failure that lists its findings. -/
def Checked.orInvalid : Checked Value → Except Failure Value
  | .valid value => .ok value
  | .faulty findings => .error (.invalid findings)

theorem Checked.orInvalid_eq_ok_iff {checked : Checked Value} :
    checked.orInvalid = .ok value ↔ checked = .valid value := by
  cases checked <;> simp [Checked.orInvalid]

/-- A section reads its fields from what is gathered and what is given. -/
theorem Section.resolve_eq (given : List (String × Json)) :
    part.resolve environment given =
      gather .environment (fun field => environment.get? (part.variableStart ++ field))
          part.fields >>= fun found =>
        (Function.const Unit <$> part.read (Json.setFields found given) <*>
          othersIn (Json.setFields found given) part.fieldNames).orInvalid := by
  simp only [Section.resolve, Checked.orInvalid]
  rfl

/-- A section is resolved when its source can be read and its fields are valid and known. -/
theorem Section.resolve_eq_ok_iff {given : List (String × Json)} :
    part.resolve environment given = .ok value ↔
      ∃ found, gather .environment (fun field => environment.get? (part.variableStart ++ field))
          part.fields = .ok found ∧
        part.read (Json.setFields found given) = .valid value ∧
        ∀ name, ((Json.object (Json.setFields found given)).field? name).isSome →
          name ∈ part.fieldNames := by
  rw [Section.resolve_eq, bind_eq_ok_iff]
  refine exists_congr fun found => and_congr_right fun _ => ?_
  rw [Checked.orInvalid_eq_ok_iff, Checked.seq_eq_valid_iff, ← othersIn_eq_valid_iff]
  constructor
  · rintro ⟨make, _, made, noOthers, isValue⟩
    obtain ⟨value, isRead, rfl⟩ := Checked.map_eq_valid_iff.mp made
    exact ⟨isValue ▸ isRead, noOthers⟩
  · rintro ⟨isRead, noOthers⟩
    exact ⟨_, (), Checked.map_eq_valid_iff.mpr ⟨value, isRead, rfl⟩, noOthers, rfl⟩

/-- A section is valid when its fields and variables are, also when it is not given. -/
theorem Section.resolveWithin_eq_valid_iff {values : List (String × Json)} :
    part.resolveWithin environment values = .ok (.valid value) ↔
      ∃ given, ((Json.object values).field? part.name = none ∧ given = [] ∨
          (Json.object values).field? part.name = some (.object given)) ∧
        part.resolve environment given = .ok value := by
  unfold Section.resolveWithin
  split
  · next absent =>
    simp [absent, bind_eq_ok_iff, pure, Except.pure]
  · next given present =>
    rw [Except.ok.injEq, Checked.under_eq_valid_iff]
    simp only [present, reduceCtorEq, false_and, false_or, Option.some_inj]
    cases given with
    | object fields =>
      simp only [Json.object.injEq, exists_eq_left']
      split <;> simp_all [Checked.fault]
    | _ => simp [Checked.fault]

/-- A section depends on its variables and on what is given under its name. -/
theorem Section.resolveWithin_congr {values others : List (String × Json)} {other : Environment}
    (sameValue : (Json.object values).field? part.name = (Json.object others).field? part.name)
    (sameVariables : ∀ name ∈ part.variableNames, environment.get? name = other.get? name) :
    part.resolveWithin environment values = part.resolveWithin other others := by
  have sameResolve (given : List (String × Json)) :
      part.resolve environment given = part.resolve other given := by
    rw [Section.resolve, Section.resolve, gather_congr fun field member => ?_]
    exact sameVariables _ (List.mem_map_of_mem (List.mem_map_of_mem member))
  simp only [Section.resolveWithin, sameValue, sameResolve]

end Sections

/-! ### Settings as a whole -/

section Whole

variable {environment file : Environment} {values given : List (String × Json)}
variable {settings : Settings}

/-- What is made of the values that all sources give. -/
def resolveValues (environment : Environment) (values : List (String × Json)) :
    Except Failure Settings := do
  let paths ← pathsSection.resolveWithin environment values
  let parsing ← parsingSection.resolveWithin environment values
  let generation ← generationSection.resolveWithin environment values
  let logging ← loggingSection.resolveWithin environment values
  (Settings.mk <$> field values "app_name" readText "SpecTrace"
    <*> field values "app_version" readText "0.1.0"
    <*> paths <*> parsing <*> generation <*> logging).orInvalid

/-- Settings are resolved from the merged sources. -/
theorem resolve_eq : resolve environment file given =
    merged environment file given >>= resolveValues environment := by
  refine bind_congr fun values => bind_congr fun paths => bind_congr fun parsing =>
    bind_congr fun generation => bind_congr fun logging => ?_
  split
  · next whole => rw [whole, Checked.orInvalid]
  · next whole => rw [whole, Checked.orInvalid]

structure Resolves (environment : Environment) (values : List (String × Json))
    (settings : Settings) : Prop where
  appName : field values "app_name" readText "SpecTrace" = .valid settings.appName
  appVersion : field values "app_version" readText "0.1.0" = .valid settings.appVersion
  paths : pathsSection.resolveWithin environment values = .ok (.valid settings.paths)
  parsing : parsingSection.resolveWithin environment values = .ok (.valid settings.parsing)
  generation : generationSection.resolveWithin environment values = .ok (.valid settings.generation)
  logging : loggingSection.resolveWithin environment values = .ok (.valid settings.logging)

/-- Settings are resolved when each field and each section is. -/
theorem resolveValues_eq_ok_iff :
    resolveValues environment values = .ok settings ↔ Resolves environment values settings := by
  constructor
  · intro resolved
    simp only [resolveValues, bind_eq_ok_iff] at resolved
    obtain ⟨paths, isPaths, parsing, isParsing, generation, isGeneration, logging, isLogging,
      built⟩ := resolved
    simp only [Checked.orInvalid_eq_ok_iff, Checked.seq_eq_valid_iff, Checked.map_eq_valid_iff]
      at built
    obtain ⟨_, logging, ⟨_, generation, ⟨_, parsing, ⟨_, paths, ⟨_, version, ⟨name, isName, rfl⟩,
      isVersion, rfl⟩, rfl, rfl⟩, rfl, rfl⟩, rfl, rfl⟩, rfl, rfl⟩ := built
    exact ⟨isName, isVersion, isPaths, isParsing, isGeneration, isLogging⟩
  · intro isResolved
    have name := isResolved.appName
    have version := isResolved.appVersion
    simp only [resolveValues, isResolved.paths, isResolved.parsing, isResolved.generation,
      isResolved.logging, name, version]
    rfl

end Whole

end InterfaceAudit.Settings
