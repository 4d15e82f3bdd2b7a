import InterfaceAudit.Audit.Document
import InterfaceAudit.Narrative

/-!
Features: what an audit document says about one subject, and the shared types.
-/

namespace InterfaceAudit.Audit

open Idl (Argument Subject Document Span)

/-- A callable is shown with the signatures of its parameters. -/
def displayName (name : String) (parameters : List Argument) : String :=
  name ++ "(" ++ String.intercalate ", " (parameters.map Argument.signature) ++ ")"

/-- The algorithm steps are numbered from one. -/
def numberedSteps (featureId : String) (codeRef : Option CodeLink) (number : Nat) :
    List String → List Step
  | [] => []
  | text :: rest =>
    { id := featureId ++ ".step-" ++ toString number, description := text, codeRef } ::
      numberedSteps featureId codeRef (number + 1) rest

/-- A feature without algorithm steps has one step, which verifies its declaration. -/
def verificationSteps (featureId name : String) (algorithmSteps : List String)
    (links : CrossReference) : List Step :=
  let codeRef := links.implementation.or links.declaration
  if algorithmSteps.isEmpty then
    [{ id := featureId ++ ".verify"
       description := "Verify " ++ name ++ " behaves as declared in the IDL"
       codeRef }]
  else numberedSteps featureId codeRef 1 algorithmSteps

/-- The steps that a narrative lists under the name of a subject. -/
def algorithmSteps (narrative : Option Narrative) (name : String) : List String :=
  ((narrative.bind fun narrative => narrative.methods.get? name).map Algorithm.steps).getD []

def feature (interface : String) (subject : Subject) (links : CrossReference)
    (narrative : Option Narrative) (narrativeRef : String) : Feature :=
  let id := interface ++ "." ++ subject.name
  let steps := algorithmSteps narrative subject.name
  let described := verificationSteps id subject.name steps links
  match subject with
  | .attribute member =>
    { id
      category := .attribute
      name := member.name
      description := if member.readonly then "Readonly attribute" else "Read/write attribute"
      codeLinks := links
      returnType := some member.type
      readonly := some member.readonly
      algorithmRef := some (narrativeRef ++ "#attributes")
      algorithmSteps := steps
      steps := described }
  | .method name member =>
    let label := if member.isStatic then "Static method" else "Method"
    { id
      category := if member.isStatic then .staticMethod else .method
      name := displayName name member.parameters
      description := steps.head?.getD (label ++ " " ++ name)
      codeLinks := links
      returnType := some member.returnType
      algorithmRef := some (narrativeRef ++ "#" ++ lowerCase name)
      algorithmSteps := steps
      steps := described }
  | .constructor member =>
    { id
      category := .constructor
      name := displayName "constructor" member.parameters
      description := "Create " ++ interface ++ " instance"
      codeLinks := links
      algorithmRef := some (narrativeRef ++ "#constructor")
      algorithmSteps := steps
      steps := described }

/-- A definition is referred to by its file and, where it is known, its span. -/
def idlSource (idlFile : String) (span : Option Span) : String :=
  match span with
  | some span => idlFile ++ span.fragment
  | none => idlFile

/-- Dictionaries and enumerations are listed in file order. -/
def types (idlFile : String) (document : Document) : TypesDocument where
  dictionaries := document.dictionaries.map fun dictionary =>
    { name := dictionary.name
      idlSource := idlSource idlFile dictionary.span
      inheritance := dictionary.inheritance
      fields := (document.fieldsOf dictionary.name).map fun field =>
        ⟨field.name, field.type, field.required, field.default⟩ }
  enumerations := document.enumerations.map fun enumeration =>
    ⟨enumeration.name, idlSource idlFile enumeration.span, enumeration.values⟩

end InterfaceAudit.Audit
