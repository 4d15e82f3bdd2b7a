import InterfaceAudit.Proofs.Settings.Resolution
import InterfaceAudit.Proofs.Text.Pieces

/-!
Lists in the sources of settings.
A value that is given may list names with commas between them. A variable has to be JSON before it
is read as a list, so the same text in a variable stops everything.

That the variable of a list is decoded as JSON first is granted: it is the documented behaviour of
the settings package, and `decode` is where the definitions take it from there. The list of the
parts between commas is the program's own.
-/

namespace InterfaceAudit

namespace Environment

/-- A variable that is set last counts. -/
def set (environment : Environment) (name text : String) : Environment :=
  ⟨environment.entries ++ [(name, text)]⟩

/-- The variable that is set last counts, in any case of its name. -/
theorem get?_set (environment : Environment) (name other text : String) :
    (environment.set name text).get? other =
      if lowerCase name = lowerCase other then some text else environment.get? other := by
  simp only [get?, set, List.reverse_append, List.reverse_singleton, List.singleton_append,
    List.find?_cons]
  by_cases same : lowerCase name = lowerCase other
  · simp [same]
  · simp [same, beq_false_of_ne same]

end Environment

namespace Settings

/-- A setting that lists names. -/
inductive ListField where
  | returnTypes
  | groups
  | cases
  deriving DecidableEq, Repr

namespace ListField

def name : ListField → String
  | .returnTypes => "header_return_types"
  | .groups => "group_functions"
  | .cases => "case_functions"

def variableName (entry : ListField) : String := parsingSection.variableStart ++ entry.name

def put (parsing : Parsing) (names : List String) : ListField → Parsing
  | .returnTypes => { parsing with returnTypes := names }
  | .groups => { parsing with vocabulary := { parsing.vocabulary with groupFunctions := names } }
  | .cases => { parsing with vocabulary := { parsing.vocabulary with caseFunctions := names } }

/-- The value that gives the names in one text. -/
def given (entry : ListField) (text : String) : List (String × Json) :=
  [(parsingSection.name, .object [(entry.name, .string text)])]

theorem member (entry : ListField) : (entry.name, Spelling.json) ∈ parsingSection.fields := by
  cases entry <;> decide

theorem spelled (entry : ListField) :
    ∀ field ∈ parsingSection.fields, field.1 = entry.name → field.2 = .json := by
  cases entry <;> decide

end ListField

/-- The parts of a text between its commas. -/
structure Parts (text : String) (parts : List (List Char)) : Prop where
  noComma : ∀ part ∈ parts, ',' ∉ part
  joined : List.intercalate [','] parts = text.toList

/-- A text lists its parts between commas, trimmed and without the empty ones. -/
theorem exists_parts (text : String) : ∃ parts, Parts text parts ∧
    listed text = ((parts.map Text.trim).filter (· ≠ [])).map String.ofList :=
  ⟨Text.splitOn ',' text.toList, ⟨fun _ => Text.not_mem_of_mem_splitOn,
    Text.intercalate_splitOn ',' text.toList⟩, rfl⟩

/-! ### Values that are given -/

section Given

variable {environment : Environment} {fields others values : List (String × Json)}
variable {parsing : Parsing} {entry : ListField} {text : String}

/-- The section is valid when each of its fields is. -/
theorem readParsing_eq_valid_iff :
    parsingSection.read fields = .valid parsing ↔
      field fields "header_return_types" readList ["Napi::Value", "void", "bool"] =
          .valid parsing.returnTypes ∧
        field fields "group_functions" readList ["describe"] =
          .valid parsing.vocabulary.groupFunctions ∧
        field fields "case_functions" readList ["it"] = .valid parsing.vocabulary.caseFunctions ∧
        field fields "static_lookahead_chars" (readLimited lookaheadLimits) ⟨200, by decide⟩ =
          .valid parsing.lookahead := by
  simp only [parsingSection, Checked.seq_eq_valid_iff, Checked.map_eq_valid_iff]
  constructor
  · intro isRead
    obtain ⟨_, lookahead, ⟨_, cases, ⟨_, groups, ⟨returnTypes, isTypes, rfl⟩, isGroups, rfl⟩,
      isCases, rfl⟩, isLookahead, rfl⟩ := isRead
    exact ⟨isTypes, isGroups, isCases, isLookahead⟩
  · intro ⟨isTypes, isGroups, isCases, isLookahead⟩
    exact ⟨_, _, ⟨_, _, ⟨_, _, ⟨_, isTypes, rfl⟩, isGroups, rfl⟩, isCases, rfl⟩, isLookahead, rfl⟩

/-- A text in place of a list field is read as the list of its parts. -/
theorem readParsing_put (isRead : parsingSection.read fields = .valid parsing)
    (found : ∀ name, (Json.object others).field? name =
      if entry.name = name then some (.string text) else (Json.object fields).field? name) :
    parsingSection.read others = .valid (entry.put parsing (listed text)) := by
  obtain ⟨isTypes, isGroups, isCases, isLookahead⟩ := readParsing_eq_valid_iff.mp isRead
  have present : (Json.object others).field? entry.name = some (.string text) :=
    (found entry.name).trans (if_pos rfl)
  have kept {Value : Type} {read : Json → Checked Value} {default : Value} (name : String)
      (apart : entry.name ≠ name) :
      field others name read default = field fields name read default :=
    field_congr ((found name).trans (if_neg apart))
  have changed (default : List String) :
      field others entry.name readList default = .valid (listed text) := field_of_valid present rfl
  apply readParsing_eq_valid_iff.mpr
  cases entry with
  | returnTypes =>
    refine ⟨changed _, ?_, ?_, ?_⟩
    · exact (kept _ (by decide)).trans isGroups
    · exact (kept _ (by decide)).trans isCases
    · exact (kept _ (by decide)).trans isLookahead
  | groups =>
    refine ⟨?_, changed _, ?_, ?_⟩
    · exact (kept _ (by decide)).trans isTypes
    · exact (kept _ (by decide)).trans isCases
    · exact (kept _ (by decide)).trans isLookahead
  | cases =>
    refine ⟨?_, ?_, changed _, ?_⟩
    · exact (kept _ (by decide)).trans isTypes
    · exact (kept _ (by decide)).trans isGroups
    · exact (kept _ (by decide)).trans isLookahead

/-- A given text wins over the variable of its field. -/
theorem resolveParsing_put (resolved : parsingSection.resolve environment fields = .ok parsing) :
    parsingSection.resolve environment (Json.setField fields entry.name (.string text)) =
      .ok (entry.put parsing (listed text)) := by
  obtain ⟨fromVariables, areRead, isRead, known⟩ := Section.resolve_eq_ok_iff.mp resolved
  have found := fun name =>
    Json.field?_setFields_setField fromVariables fields entry.name name (.string text)
  refine Section.resolve_eq_ok_iff.mpr ⟨fromVariables, areRead, readParsing_put isRead found, ?_⟩
  intro name isFound
  rw [found] at isFound
  split at isFound
  · next same =>
    rw [← same]
    exact List.mem_map_of_mem entry.member
  · exact known name isFound

/-- A text under the name of a list is put in the place of what the other sources give. -/
theorem resolveWithin_put
    (resolved : parsingSection.resolveWithin environment values = .ok (.valid parsing)) :
    parsingSection.resolveWithin environment (Json.overlay values (entry.given text)) =
      .ok (.valid (entry.put parsing (listed text))) := by
  obtain ⟨fields, isFields, isResolved⟩ := Section.resolveWithin_eq_valid_iff.mp resolved
  refine Section.resolveWithin_eq_valid_iff.mpr
    ⟨Json.setField fields entry.name (.string text), .inr ?_, resolveParsing_put isResolved⟩
  rcases isFields with ⟨absent, rfl⟩ | present
  · rw [ListField.given, Json.overlay_of_none absent, Json.field?_setField, if_pos rfl]
    rfl
  · rw [ListField.given, Json.overlay_of_object present, Json.field?_setField, if_pos rfl]
    rfl

/-- A given text changes the one field of the settings. -/
theorem Resolves.put {settings : Settings} (isResolved : Resolves environment values settings) :
    Resolves environment (Json.overlay values (entry.given text))
      { settings with parsing := entry.put settings.parsing (listed text) } := by
  have kept (name : String) (apart : "parser" ≠ name) :
      (Json.object (Json.overlay values (entry.given text))).field? name =
        (Json.object values).field? name := Json.field?_overlay_singleton values apart _
  have sameWithin {Value : Type} {part : Section Value} (apart : "parser" ≠ part.name) :
      part.resolveWithin environment (Json.overlay values (entry.given text)) =
        part.resolveWithin environment values :=
    Section.resolveWithin_congr (kept part.name apart) fun _ _ => rfl
  constructor
  · exact (field_congr (kept _ (by decide))).trans isResolved.appName
  · exact (field_congr (kept _ (by decide))).trans isResolved.appVersion
  · exact (sameWithin (by decide)).trans isResolved.paths
  · exact resolveWithin_put isResolved.parsing
  · exact (sameWithin (by decide)).trans isResolved.generation
  · exact (sameWithin (by decide)).trans isResolved.logging

/-- What is given is laid over what the sources hold. -/
theorem merged_of_merged_nil {file : Environment}
    (isMerged : merged environment file [] = .ok values) (given : List (String × Json)) :
    merged environment file given = .ok (Json.overlay values given) := by
  simp only [merged, bind_eq_ok_iff] at isMerged ⊢
  obtain ⟨fromEnvironment, isEnvironment, fromFile, isFile, isValues⟩ := isMerged
  obtain rfl := Except.ok.inj isValues
  exact ⟨fromEnvironment, isEnvironment, fromFile, isFile, rfl⟩

/-- A comma-separated text that is given is read as its parts. -/
theorem resolve_given {file : Environment} {settings : Settings}
    (resolved : resolve environment file [] = .ok settings) :
    resolve environment file (entry.given text) =
      .ok { settings with parsing := entry.put settings.parsing (listed text) } := by
  rw [resolve_eq, bind_eq_ok_iff] at resolved ⊢
  obtain ⟨values, isMerged, isResolved⟩ := resolved
  exact ⟨_, merged_of_merged_nil isMerged _,
    resolveValues_eq_ok_iff.mpr (resolveValues_eq_ok_iff.mp isResolved).put⟩

end Given

/-! ### Variables -/

section Variables

variable {environment file : Environment} {given : List (String × Json)} {settings : Settings}
variable {entry : ListField} {text : String}

/-- Settings are found only where the variable of each list is JSON. -/
theorem read?_ne_none_of_resolve (resolved : resolve environment file given = .ok settings)
    (isSet : environment.get? entry.variableName = some text) : Json.read? text ≠ none := by
  rw [resolve_eq, bind_eq_ok_iff] at resolved
  obtain ⟨values, -, isResolved⟩ := resolved
  obtain ⟨fields, -, isParsing⟩ :=
    Section.resolveWithin_eq_valid_iff.mp (resolveValues_eq_ok_iff.mp isResolved).parsing
  obtain ⟨found, isRead, -⟩ := Section.resolve_eq_ok_iff.mp isParsing
  exact read?_ne_none_of_gather isRead entry.member isSet

/-- No other setting has a variable with the name of a list. -/
theorem ListField.apart (entry : ListField) :
    ∀ name ∈ fields.map Prod.fst ++ pathsSection.variableNames,
      lowerCase entry.variableName ≠ lowerCase name := by
  cases entry <;> decide +kernel

/-- The variable of a list field is the variable of no other field. -/
theorem ListField.apart_of_ne (entry : ListField) :
    ∀ field ∈ parsingSection.fields, field.1 ≠ entry.name →
      lowerCase entry.variableName ≠ lowerCase (parsingSection.variableStart ++ field.1) := by
  cases entry <;> decide +kernel

/-- Bringing sections to their field names adds no section. -/
theorem field?_normalizeSections {given : List (String × Json)} {name : String}
    (absent : (Json.object given).field? name = none) :
    (Json.object (normalizeSections given)).field? name = none := by
  rw [Json.field?_eq_none_iff] at absent ⊢
  simpa only [normalizeSections, List.map_map, Function.comp_def] using absent

/-- A section without a variable of its own is not among the values. -/
theorem field?_merged {values : List (String × Json)} {name : String}
    (isMerged : merged environment file [] = .ok values) (unset : environment.get? name = none)
    (fileUnset : file.get? name = none) : (Json.object values).field? name = none := by
  simp only [merged, bind_eq_ok_iff] at isMerged
  obtain ⟨fromEnvironment, isEnvironment, fromFile, isFile, isValues⟩ := isMerged
  obtain rfl := Except.ok.inj isValues
  exact Json.field?_overlay_eq_none
    (Json.field?_overlay_eq_none (field?_normalizeSections (field?_of_gather isFile fileUnset))
      (field?_normalizeSections (field?_of_gather isEnvironment unset))) (Json.field?_nil name)

/-- The variable of a list that is not JSON is named in the failure. -/
theorem resolve_set (resolved : resolve environment file [] = .ok settings)
    (unset : environment.get? parsingSection.name = none)
    (fileUnset : file.get? parsingSection.name = none) (notJson : Json.read? text = none) :
    resolve (environment.set entry.variableName text) file [] =
      .error (.notJson entry.name .environment) := by
  have same (name : String) (member : name ∈ fields.map Prod.fst ++ pathsSection.variableNames) :
      (environment.set entry.variableName text).get? name = environment.get? name :=
    (environment.get?_set ..).trans (if_neg (entry.apart name member))
  rw [resolve_eq, bind_eq_ok_iff] at resolved
  obtain ⟨values, isMerged, isResolved⟩ := resolved
  have isResolved := resolveValues_eq_ok_iff.mp isResolved
  have absent := field?_merged isMerged unset fileUnset
  have sameMerged : merged (environment.set entry.variableName text) file [] = .ok values := by
    rw [← isMerged, merged, merged, gather_congr fun field member => ?_]
    exact same field.1 (List.mem_append_left _ (List.mem_map_of_mem member))
  have samePaths : pathsSection.resolveWithin (environment.set entry.variableName text) values =
      .ok (.valid settings.paths) := by
    rw [← isResolved.paths]
    exact Section.resolveWithin_congr rfl fun name member =>
      same name (List.mem_append_right _ member)
  have failed : parsingSection.resolve (environment.set entry.variableName text) [] =
      .error (.notJson entry.name .environment) := by
    obtain ⟨given, -, isParsing⟩ := Section.resolveWithin_eq_valid_iff.mp isResolved.parsing
    obtain ⟨found, isRead, -⟩ := Section.resolve_eq_ok_iff.mp isParsing
    have isSet :=
      (environment.get?_set entry.variableName entry.variableName text).trans (if_pos rfl)
    rw [Section.resolve, gather_eq_error isRead entry.member entry.spelled isSet notJson ?_]
    · rfl
    · intro field member other
      exact (environment.get?_set ..).trans (if_neg (entry.apart_of_ne field member other))
  have notParsed : parsingSection.resolveWithin (environment.set entry.variableName text)
      values = .error (.notJson entry.name .environment) := by
    rw [Section.resolveWithin, absent, failed]
    rfl
  rw [resolve_eq, sameMerged]
  show resolveValues _ values = _
  rw [resolveValues, samePaths, notParsed]
  rfl

end Variables

/-- Names with commas between them are a list among the values, and no list in a variable: there a
text that is not JSON stops everything. The last part rests on the granted decoding of variables,
the first two on the program's own reading of a list. -/
theorem resolve_lists (environment : Environment) (entry : ListField) (text : String)
    {settings : Settings} (resolved : resolve environment ⟨[]⟩ [] = .ok settings) :
    (∃ parts, Parts text parts ∧
      listed text = ((parts.map Text.trim).filter (· ≠ [])).map String.ofList) ∧
    ofJson environment (.object (entry.given text)) =
      .ok { settings with parsing := entry.put settings.parsing (listed text) } ∧
    (Json.read? text = none →
      (environment.get? parsingSection.name = none →
        resolve (environment.set entry.variableName text) ⟨[]⟩ [] =
          .error (.notJson entry.name .environment)) ∧
      ∀ other file given settings, Environment.get? other entry.variableName = some text →
        resolve other file given ≠ .ok settings) := by
  refine ⟨exists_parts text, ?_, fun notJson => ⟨fun unset => ?_, ?_⟩⟩
  · rw [ofJson, resolve_given resolved]
  · exact resolve_set resolved unset rfl notJson
  · intro other file given found isSet isFound
    exact read?_ne_none_of_resolve isFound isSet notJson

/-- The same text is a list when it is given and a failure in a variable. -/
theorem resolve_lists_groups :
    ofJson ⟨[]⟩ (.object (ListField.groups.given "describe, suite")) =
        .ok { parsing := ListField.groups.put {} ["describe", "suite"] } ∧
      resolve (Environment.set ⟨[]⟩ "PARSER_group_functions" "describe, suite") ⟨[]⟩ [] =
        .error (.notJson "group_functions" .environment) := by
  obtain ⟨-, isGiven, inVariable⟩ :=
    resolve_lists ⟨[]⟩ .groups "describe, suite" (show resolve ⟨[]⟩ ⟨[]⟩ [] = .ok {} from rfl)
  have notJson : Json.read? "describe, suite" = none := rfl
  have names : listed "describe, suite" = ["describe", "suite"] := by decide +kernel
  rw [names] at isGiven
  exact ⟨isGiven, (inVariable notJson).1 rfl⟩

end Settings

end InterfaceAudit
