import InterfaceAudit.CrossReference
import InterfaceAudit.Json.Basic

/-!
Audit documents: the features of one interface with their code links and verification steps, and
the document of the dictionaries and enumerations that all interfaces share.
-/

namespace InterfaceAudit.Audit

inductive Category where
  | constructor | «attribute» | method | staticMethod
  deriving DecidableEq, Repr

def Category.name : Category → String
  | .constructor => "constructor"
  | .attribute => "attribute"
  | .method => "method"
  | .staticMethod => "static-method"

structure Step where
  id : String
  description : String
  codeRef : Option CodeLink
  passes : Bool := false
  deriving DecidableEq, Repr

structure Feature where
  id : String
  category : Category
  name : String
  description : String
  codeLinks : CrossReference
  returnType : Option String := none
  readonly : Option Bool := none
  algorithmRef : Option String := none
  algorithmSteps : List String := []
  steps : List Step := []
  passes : Bool := false
  deriving DecidableEq, Repr

/-- Paths of the artifacts relative to the project. -/
structure ArtifactPaths where
  header : String
  implementation : String
  wrapper : String
  tests : String
  deriving DecidableEq, Repr

structure InterfaceDocument where
  interface : String
  idlSource : String
  specSource : Option String
  inheritance : Option String
  extAttrs : List String
  files : ArtifactPaths
  features : List Feature
  deriving DecidableEq, Repr

structure FieldEntry where
  name : String
  type : String
  required : Bool
  defaultValue : Option String
  deriving DecidableEq, Repr

structure DictionaryEntry where
  name : String
  idlSource : String
  inheritance : Option String
  fields : List FieldEntry
  deriving DecidableEq, Repr

structure EnumerationEntry where
  name : String
  idlSource : String
  values : List String
  deriving DecidableEq, Repr

structure TypesDocument where
  dictionaries : List DictionaryEntry
  enumerations : List EnumerationEntry
  deriving DecidableEq, Repr

/-! ### Written form -/

def linkJson (link : CodeLink) : Json :=
  .ofFields
    [("file", some (.string link.file)), ("line", some (.nat link.line)),
      ("endLine", link.endLine.map .nat)]

/-- Links that were not resolved are left out. -/
def crossReferenceJson (links : CrossReference) : Json :=
  .ofFields
    [("declaration", links.declaration.map linkJson),
      ("implementation", links.implementation.map linkJson),
      ("highLevelBinding", links.binding.map linkJson),
      ("test", links.test.map linkJson)]

def missingSymbolJson (missing : MissingSymbol) : Json :=
  .object
    [("interface", .string missing.interface), ("member", .string missing.member),
      ("memberKind", .string missing.memberKind),
      ("expectedArtifact", .string missing.expectedArtifact),
      ("artifactKind", .string missing.artifact.name),
      ("expectedSymbol", .string missing.expectedSymbol)]

def Step.json (step : Step) : Json :=
  .ofFields
    [("id", some (.string step.id)), ("description", some (.string step.description)),
      ("codeRef", step.codeRef.map linkJson), ("passes", some (.bool step.passes))]

def Feature.json (feature : Feature) : Json :=
  .ofFields
    [("id", some (.string feature.id)),
      ("category", some (.string feature.category.name)),
      ("name", some (.string feature.name)),
      ("description", some (.string feature.description)),
      ("returnType", feature.returnType.map .string),
      ("readonly", feature.readonly.map .bool),
      ("codeLinks", some (crossReferenceJson feature.codeLinks)),
      ("algorithmRef", feature.algorithmRef.map .string),
      ("algorithmSteps", some (.strings feature.algorithmSteps)),
      ("steps", some (.array (feature.steps.map Step.json))),
      ("passes", some (.bool feature.passes))]

def ArtifactPaths.json (paths : ArtifactPaths) : Json :=
  .object
    [("header", .string paths.header), ("implementation", .string paths.implementation),
      ("wrapper", .string paths.wrapper), ("tests", .string paths.tests)]

def InterfaceDocument.json (document : InterfaceDocument) : Json :=
  .ofFields
    [("interface", some (.string document.interface)),
      ("type", some (.string "interface")),
      ("source", some (.ofFields
        [("idl", some (.string document.idlSource)), ("spec", document.specSource.map .string)])),
      ("inheritance", document.inheritance.map .string),
      ("extendedAttributes", some (.strings document.extAttrs)),
      ("files", some document.files.json),
      ("features", some (.array (document.features.map Feature.json)))]

def FieldEntry.json (field : FieldEntry) : Json :=
  .ofFields
    [("name", some (.string field.name)), ("type", some (.string field.type)),
      ("required", some (.bool field.required)), ("defaultValue", field.defaultValue.map .string)]

def sourceJson (idlSource : String) : Json := .object [("idl", .string idlSource)]

def DictionaryEntry.json (dictionary : DictionaryEntry) : Json :=
  .ofFields
    [("name", some (.string dictionary.name)), ("source", some (sourceJson dictionary.idlSource)),
      ("inheritance", dictionary.inheritance.map .string),
      ("fields", some (.array (dictionary.fields.map FieldEntry.json)))]

def EnumerationEntry.json (enumeration : EnumerationEntry) : Json :=
  .object
    [("name", .string enumeration.name), ("source", sourceJson enumeration.idlSource),
      ("values", .strings enumeration.values)]

def TypesDocument.json (types : TypesDocument) : Json :=
  .object
    [("dictionaries", .array (types.dictionaries.map DictionaryEntry.json)),
      ("enums", .array (types.enumerations.map EnumerationEntry.json))]

end InterfaceAudit.Audit
