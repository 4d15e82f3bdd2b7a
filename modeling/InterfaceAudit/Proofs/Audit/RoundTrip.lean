import InterfaceAudit.Audit.Document
import InterfaceAudit.Project.Run
import InterfaceAudit.Proofs.Json.Decoder

/-!
Round trip of audit documents.
Each record has a decoder that asks for its fields by their names. An optional field is left out
when it has no value, and no other field has its name, so what is absent from the text is absent
from the record.
-/

namespace InterfaceAudit.Audit

open Json (Lossless required? optional? text? truth? nat? list? lossless_text lossless_truth
  lossless_nat lossless_texts exact_ofFields)

/-! ### Links -/

def linkOfJson? (json : Json) : Option CodeLink := do
  return ⟨← required? json "file" text?, ← required? json "line" nat?,
    ← optional? json "endLine" nat?⟩

/-- A link that has no last line comes back without one. -/
theorem lossless_link : Lossless linkJson linkOfJson? where
  isExact link := exact_ofFields (by simp)
    (by simp [lossless_text.isExact, lossless_nat.isExact, lossless_nat.ifGiven])
  decoded link := by
    have file : required? (linkJson link) "file" text? = some link.file :=
      lossless_text.required rfl
    have line : required? (linkJson link) "line" nat? = some link.line :=
      lossless_nat.required rfl
    have endLine : optional? (linkJson link) "endLine" nat? = some link.endLine :=
      lossless_nat.optional (by simp [linkJson])
    simp [linkOfJson?, file, line, endLine]

def crossReferenceOfJson? (json : Json) : Option CrossReference := do
  return ⟨← optional? json "declaration" linkOfJson?, ← optional? json "implementation" linkOfJson?,
    ← optional? json "highLevelBinding" linkOfJson?, ← optional? json "test" linkOfJson?⟩

/-- Each of the four links may be left out on its own. -/
theorem lossless_crossReference : Lossless crossReferenceJson crossReferenceOfJson? where
  isExact links := exact_ofFields (by simp) (by simp [lossless_link.ifGiven])
  decoded links := by
    have link (name : String) (value : Option CodeLink)
        (given : (crossReferenceJson links).field? name = value.map linkJson) :
        optional? (crossReferenceJson links) name linkOfJson? = some value :=
      lossless_link.optional given
    have declaration := link "declaration" links.declaration (by simp [crossReferenceJson])
    have implementation := link "implementation" links.implementation (by simp [crossReferenceJson])
    have binding := link "highLevelBinding" links.binding (by simp [crossReferenceJson])
    have test := link "test" links.test (by simp [crossReferenceJson])
    simp [crossReferenceOfJson?, declaration, implementation, binding, test]

/-! ### Features -/

def Category.ofName? (name : String) : Option Category :=
  [.constructor, .attribute, .method, .staticMethod].find? fun category => category.name == name

def categoryOfJson? (json : Json) : Option Category := do
  Category.ofName? (← text? json)

/-- The names of the categories are distinct. -/
theorem lossless_category : Lossless (fun category => .string (Category.name category))
    categoryOfJson? where
  isExact category := .string category.name
  decoded category := by cases category <;> rfl

def stepOfJson? (json : Json) : Option Step := do
  return ⟨← required? json "id" text?, ← required? json "description" text?,
    ← optional? json "codeRef" linkOfJson?, ← required? json "passes" truth?⟩

/-- A step comes back with its code reference, if it has one. -/
theorem lossless_step : Lossless Step.json stepOfJson? where
  isExact step := exact_ofFields (by simp)
    (by simp [lossless_text.isExact, lossless_link.ifGiven, lossless_truth.isExact])
  decoded step := by
    have id : required? step.json "id" text? = some step.id := lossless_text.required rfl
    have description : required? step.json "description" text? = some step.description :=
      lossless_text.required rfl
    have codeRef : optional? step.json "codeRef" linkOfJson? = some step.codeRef :=
      lossless_link.optional (by simp [Step.json])
    have passes : required? step.json "passes" truth? = some step.passes :=
      lossless_truth.required (by simp [Step.json])
    simp [stepOfJson?, id, description, codeRef, passes]

def featureOfJson? (json : Json) : Option Feature := do
  return {
    id := ← required? json "id" text?
    category := ← required? json "category" categoryOfJson?
    name := ← required? json "name" text?
    description := ← required? json "description" text?
    codeLinks := ← required? json "codeLinks" crossReferenceOfJson?
    returnType := ← optional? json "returnType" text?
    readonly := ← optional? json "readonly" truth?
    algorithmRef := ← optional? json "algorithmRef" text?
    algorithmSteps := ← required? json "algorithmSteps" (list? text?)
    steps := ← required? json "steps" (list? stepOfJson?)
    passes := ← required? json "passes" truth? }

/-- A feature comes back with all that its kind of member leaves out or gives. -/
theorem lossless_feature : Lossless Feature.json featureOfJson? where
  isExact feature := exact_ofFields (by simp)
    (by simp [lossless_text.isExact, lossless_text.ifGiven, lossless_truth.isExact,
      lossless_truth.ifGiven, lossless_crossReference.isExact, lossless_texts.isExact,
      lossless_step.list.isExact])
  decoded feature := by
    have id : required? feature.json "id" text? = some feature.id := lossless_text.required rfl
    have category : required? feature.json "category" categoryOfJson? = some feature.category :=
      lossless_category.required rfl
    have name : required? feature.json "name" text? = some feature.name :=
      lossless_text.required rfl
    have description : required? feature.json "description" text? = some feature.description :=
      lossless_text.required rfl
    have codeLinks : required? feature.json "codeLinks" crossReferenceOfJson? =
        some feature.codeLinks := lossless_crossReference.required (by simp [Feature.json])
    have returnType : optional? feature.json "returnType" text? = some feature.returnType :=
      lossless_text.optional (by simp [Feature.json])
    have readonly : optional? feature.json "readonly" truth? = some feature.readonly :=
      lossless_truth.optional (by simp [Feature.json])
    have algorithmRef : optional? feature.json "algorithmRef" text? = some feature.algorithmRef :=
      lossless_text.optional (by simp [Feature.json])
    have algorithmSteps : required? feature.json "algorithmSteps" (list? text?) =
        some feature.algorithmSteps := lossless_texts.required (by simp [Feature.json])
    have steps : required? feature.json "steps" (list? stepOfJson?) = some feature.steps :=
      lossless_step.list.required (by simp [Feature.json])
    have passes : required? feature.json "passes" truth? = some feature.passes :=
      lossless_truth.required (by simp [Feature.json])
    simp [featureOfJson?, id, category, name, description, codeLinks, returnType, readonly,
      algorithmRef, algorithmSteps, steps, passes]

/-! ### Documents of interfaces -/

def artifactPathsOfJson? (json : Json) : Option ArtifactPaths := do
  return ⟨← required? json "header" text?, ← required? json "implementation" text?,
    ← required? json "wrapper" text?, ← required? json "tests" text?⟩

theorem lossless_artifactPaths : Lossless ArtifactPaths.json artifactPathsOfJson? where
  isExact paths := .object (by simp) (by simp [lossless_text.isExact])
  decoded _ := rfl

/-- The references to the sources of a document: the second one may be missing. -/
def sourcesJson (sources : String × Option String) : Json :=
  .ofFields [("idl", some (.string sources.1)), ("spec", sources.2.map .string)]

def sourcesOfJson? (json : Json) : Option (String × Option String) := do
  return ⟨← required? json "idl" text?, ← optional? json "spec" text?⟩

/-- The narrative is the only source that may be missing. -/
theorem lossless_sources : Lossless sourcesJson sourcesOfJson? where
  isExact sources := exact_ofFields (by simp)
    (by simp [lossless_text.isExact, lossless_text.ifGiven])
  decoded sources := by
    have idl : required? (sourcesJson sources) "idl" text? = some sources.1 :=
      lossless_text.required rfl
    have spec : optional? (sourcesJson sources) "spec" text? = some sources.2 :=
      lossless_text.optional (by simp [sourcesJson])
    simp [sourcesOfJson?, idl, spec]

def interfaceOfJson? (json : Json) : Option InterfaceDocument := do
  let (idlSource, specSource) ← required? json "source" sourcesOfJson?
  return {
    interface := ← required? json "interface" text?
    idlSource, specSource
    inheritance := ← optional? json "inheritance" text?
    extAttrs := ← required? json "extendedAttributes" (list? text?)
    files := ← required? json "files" artifactPathsOfJson?
    features := ← required? json "features" (list? featureOfJson?) }

/-- The document of an interface comes back with its sources, files and features. -/
theorem lossless_interface : Lossless InterfaceDocument.json interfaceOfJson? where
  isExact document := by
    have source := lossless_sources.isExact (document.idlSource, document.specSource)
    rw [sourcesJson] at source
    exact exact_ofFields (by simp)
      (by simp [lossless_text.isExact, lossless_text.ifGiven, lossless_texts.isExact, source,
        lossless_artifactPaths.isExact, lossless_feature.list.isExact])
  decoded document := by
    have source : required? document.json "source" sourcesOfJson? =
        some (document.idlSource, document.specSource) := lossless_sources.required rfl
    have interface : required? document.json "interface" text? = some document.interface :=
      lossless_text.required rfl
    have inheritance : optional? document.json "inheritance" text? = some document.inheritance :=
      lossless_text.optional (by simp [InterfaceDocument.json])
    have extAttrs : required? document.json "extendedAttributes" (list? text?) =
        some document.extAttrs := lossless_texts.required (by simp [InterfaceDocument.json])
    have files : required? document.json "files" artifactPathsOfJson? = some document.files :=
      lossless_artifactPaths.required (by simp [InterfaceDocument.json])
    have features : required? document.json "features" (list? featureOfJson?) =
        some document.features := lossless_feature.list.required (by simp [InterfaceDocument.json])
    simp [interfaceOfJson?, source, interface, inheritance, extAttrs, files, features]

/-! ### The document of the types -/

def fieldOfJson? (json : Json) : Option FieldEntry := do
  return ⟨← required? json "name" text?, ← required? json "type" text?,
    ← required? json "required" truth?, ← optional? json "defaultValue" text?⟩

/-- A field that has no default comes back without one. -/
theorem lossless_field : Lossless FieldEntry.json fieldOfJson? where
  isExact field := exact_ofFields (by simp)
    (by simp [lossless_text.isExact, lossless_text.ifGiven, lossless_truth.isExact])
  decoded field := by
    have name : required? field.json "name" text? = some field.name := lossless_text.required rfl
    have type : required? field.json "type" text? = some field.type := lossless_text.required rfl
    have required : required? field.json "required" truth? = some field.required :=
      lossless_truth.required rfl
    have defaultValue : optional? field.json "defaultValue" text? = some field.defaultValue :=
      lossless_text.optional (by simp [FieldEntry.json])
    simp [fieldOfJson?, name, type, required, defaultValue]

def sourceOfJson? (json : Json) : Option String := required? json "idl" text?

theorem lossless_source : Lossless sourceJson sourceOfJson? where
  isExact source := .object (by simp) (by simp [lossless_text.isExact])
  decoded _ := rfl

def dictionaryOfJson? (json : Json) : Option DictionaryEntry := do
  return ⟨← required? json "name" text?, ← required? json "source" sourceOfJson?,
    ← optional? json "inheritance" text?, ← required? json "fields" (list? fieldOfJson?)⟩

/-- A dictionary comes back with its parent, if it has one, and its fields. -/
theorem lossless_dictionary : Lossless DictionaryEntry.json dictionaryOfJson? where
  isExact dictionary := exact_ofFields (by simp)
    (by simp [lossless_text.isExact, lossless_text.ifGiven, lossless_source.isExact,
      lossless_field.list.isExact])
  decoded dictionary := by
    have name : required? dictionary.json "name" text? = some dictionary.name :=
      lossless_text.required rfl
    have source : required? dictionary.json "source" sourceOfJson? = some dictionary.idlSource :=
      lossless_source.required rfl
    have inheritance : optional? dictionary.json "inheritance" text? =
        some dictionary.inheritance := lossless_text.optional (by simp [DictionaryEntry.json])
    have fields : required? dictionary.json "fields" (list? fieldOfJson?) =
        some dictionary.fields := lossless_field.list.required (by simp [DictionaryEntry.json])
    simp [dictionaryOfJson?, name, source, inheritance, fields]

def enumerationOfJson? (json : Json) : Option EnumerationEntry := do
  return ⟨← required? json "name" text?, ← required? json "source" sourceOfJson?,
    ← required? json "values" (list? text?)⟩

/-- An enumeration comes back with its values in their order. -/
theorem lossless_enumeration : Lossless EnumerationEntry.json enumerationOfJson? where
  isExact enumeration := .object (by simp)
    (by simp [lossless_text.isExact, lossless_source.isExact, lossless_texts.isExact])
  decoded enumeration := by
    have name : required? enumeration.json "name" text? = some enumeration.name :=
      lossless_text.required rfl
    have source : required? enumeration.json "source" sourceOfJson? = some enumeration.idlSource :=
      lossless_source.required rfl
    have values : required? enumeration.json "values" (list? text?) = some enumeration.values :=
      lossless_texts.required rfl
    simp [enumerationOfJson?, name, source, values]

def typesOfJson? (json : Json) : Option TypesDocument := do
  return ⟨← required? json "dictionaries" (list? dictionaryOfJson?),
    ← required? json "enums" (list? enumerationOfJson?)⟩

/-- The document of the types comes back with both its lists. -/
theorem lossless_types : Lossless TypesDocument.json typesOfJson? where
  isExact types := .object (by simp)
    (by simp [lossless_dictionary.list.isExact, lossless_enumeration.list.isExact])
  decoded types := by
    have dictionaries : required? types.json "dictionaries" (list? dictionaryOfJson?) =
        some types.dictionaries := lossless_dictionary.list.required rfl
    have enumerations : required? types.json "enums" (list? enumerationOfJson?) =
        some types.enumerations := lossless_enumeration.list.required rfl
    simp [typesOfJson?, dictionaries, enumerations]

/-! ### Files -/

/-- Documents are written without loss, whatever their indent is: one decoder gets every document of
an interface back from its file, another one every document of the types. -/
theorem documents_lossless :
    (∀ settings value, Project.documentBytes settings value =
      Json.written settings.generation.indent.val value) ∧
    (∀ indent (document : InterfaceDocument),
      Json.decodeWritten? interfaceOfJson? (Json.written indent document.json) = some document) ∧
    (∀ indent (types : TypesDocument),
      Json.decodeWritten? typesOfJson? (Json.written indent types.json) = some types) ∧
    (∀ indent, Function.Injective fun document : InterfaceDocument =>
      Json.written indent document.json) ∧
    ∀ indent, Function.Injective fun types : TypesDocument => Json.written indent types.json :=
  ⟨fun _ _ => rfl, lossless_interface.decodeWritten?, lossless_types.decodeWritten?,
    lossless_interface.written_injective, lossless_types.written_injective⟩

end InterfaceAudit.Audit
