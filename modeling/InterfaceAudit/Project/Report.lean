import InterfaceAudit.Audit.Document
import InterfaceAudit.Path
import InterfaceAudit.Text.Utf8

/-!
Reports of a run: what became of each interface, and where the documents lie.
-/

namespace InterfaceAudit.Project

/-- An artifact of an interface is missing, is no text, or declares nothing to look at. -/
inductive StructuralFault where
  | missingArtifact (path : Path)
  | unreadableArtifact (path : Path) (reason : Text.Utf8Error)
  | noClass (source : Path)
  deriving DecidableEq, Repr

def missingArtifactMessage (path : Path) : String := "Artifact not found: " ++ path.toString

def noClassMessage (source : String) : String := "No class found in " ++ source

def StructuralFault.message : StructuralFault → String
  | .missingArtifact path => missingArtifactMessage path
  | .unreadableArtifact path reason =>
    "Cannot read artifact " ++ path.toString ++ ": " ++ reason.message
  | .noClass source => noClassMessage source.toString

/-- An interface is audited, or some of its symbols are missing, or its artifacts are at fault. -/
inductive Outcome where
  | audited (document : Audit.InterfaceDocument)
  | unmatched (missing : List MissingSymbol)
  | faulty (fault : StructuralFault)
  deriving DecidableEq, Repr

structure InterfaceResult where
  interface : String
  outcome : Outcome
  deriving DecidableEq, Repr

namespace InterfaceResult

def document? (result : InterfaceResult) : Option Audit.InterfaceDocument :=
  match result.outcome with
  | .audited document => some document
  | _ => none

def missingSymbols (result : InterfaceResult) : List MissingSymbol :=
  match result.outcome with
  | .unmatched missing => missing
  | _ => []

def fault? (result : InterfaceResult) : Option StructuralFault :=
  match result.outcome with
  | .faulty fault => some fault
  | _ => none

def isWritten (result : InterfaceResult) : Bool := result.document?.isSome

end InterfaceResult

/-- The document of an interface is named after it. -/
def documentPath (outputDirectory : Path) (interface : String) : Path :=
  outputDirectory.child (interface ++ ".json")

def typesPath (outputDirectory : Path) : Path := outputDirectory.child "types.json"

/-- Only an interface that was audited has a document. -/
def InterfaceResult.output? (outputDirectory : Path) (result : InterfaceResult) : Option Path :=
  result.document?.map fun _ => documentPath outputDirectory result.interface

/-- A result as it is shown in reports. -/
def InterfaceResult.json (outputDirectory : Path) (result : InterfaceResult) : Json :=
  .ofFields
    [("interface", some (.string result.interface)),
      ("ok", some (.bool result.isWritten)),
      ("features", result.document?.map fun document => .nat document.features.length),
      ("output", (result.output? outputDirectory).map fun path => .string path.toString),
      ("missingSymbols",
        if result.missingSymbols.isEmpty then none
        else some (.array (result.missingSymbols.map Audit.missingSymbolJson))),
      ("error", result.fault?.map fun fault => .string fault.message)]

/-- A run has a result for each interface with subjects; the others are skipped. -/
structure Report where
  outputDirectory : Path
  results : List InterfaceResult
  skipped : List String
  types : Audit.TypesDocument
  deriving DecidableEq, Repr

namespace Report

def written (report : Report) : List InterfaceResult :=
  report.results.filter InterfaceResult.isWritten

def failures (report : Report) : List InterfaceResult :=
  report.results.filter fun result => !result.isWritten

def featureCount (report : Report) : Nat :=
  (report.results.filterMap InterfaceResult.document?).foldl
    (fun count document => count + document.features.length) 0

end Report

end InterfaceAudit.Project
