import InterfaceAudit.Json.Printer
import InterfaceAudit.Project.Interface

/-!
Runs over a project.
Everything is read and decided before the first document is written, so what a run writes does not
depend on what it finds among the documents.
What makes syntax trees of scripts is given from outside.
-/

namespace InterfaceAudit.Project

open Idl (Subject)

variable (parse : String → Script.Tree)

/-- What stops a run. -/
inductive RunFault where
  | missingIdl (path : Path)
  | invalidIdl (error : Idl.SyntaxError)
  | undecodableIdl (error : Text.Utf8Error)
  | outside (path root : Path)
  | file (fault : FileFault)
  deriving DecidableEq, Repr

/-- A fault of the interface definition file is an answer about the project. -/
def RunFault.isStructural : RunFault → Bool
  | .missingIdl _ | .invalidIdl _ => true
  | _ => false

/-- A character that would not show is written as an escape. -/
def shownChar (quote c : Char) : List Char :=
  if c == '\\' || c == quote then ['\\', c]
  else if c == '\n' then ['\\', 'n']
  else if c == '\r' then ['\\', 'r']
  else if c == '\t' then ['\\', 't']
  else if c.toNat < 32 || c.toNat == 127 then
    ['\\', 'x', Text.hexDigit (c.toNat / 16), Text.hexDigit (c.toNat % 16)]
  else [c]

/-- A path in a message stands in single quotes, unless only they occur in it. -/
def quotedPath (path : Path) : String :=
  let text := path.toString.toList
  let quote := if text.contains '\'' && !text.contains '\x22' then '\x22' else '\''
  String.ofList (quote :: text.flatMap (shownChar quote) ++ [quote])

def FileFault.message (fault : FileFault) : String :=
  "[Errno " ++ toString fault.number ++ "] " ++ fault.reason ++ ": " ++ quotedPath fault.path

def RunFault.message : RunFault → String
  | .missingIdl path => missingArtifactMessage path
  | .invalidIdl error => error.message
  | .undecodableIdl error => error.message
  | .outside path root =>
    quotedPath path ++ " is not in the subpath of " ++ quotedPath root ++
      " OR one path is relative and the other is absolute."
  | .file fault => FileFault.message fault

/-- An interface and its subjects; one without subjects is skipped. -/
structure Candidate where
  interface : Idl.Interface
  subjects : List Subject

def candidates (document : Idl.Document) : List Candidate :=
  (document.interfaces.map fun interface =>
    (⟨interface, document.subjectsOf interface.name⟩ : Candidate)).filter fun candidate =>
      !candidate.subjects.isEmpty

def skippedNames (document : Idl.Document) : List String :=
  (document.interfaces.filter fun interface =>
    (document.subjectsOf interface.name).isEmpty).map Idl.Interface.name

/-- A candidate is decided when its outcome is known; a path outside the project decides nothing. -/
inductive Decision where
  | decided (result : InterfaceResult) (events : List Event)
  | outside (path root : Path)

def Candidate.decision (settings : Settings) (tree : FileTree) (root : Path)
    (candidate : Candidate) : Decision :=
  let name := candidate.interface.name
  match readArtifacts tree root (.ofInterface settings.paths name) with
  | .ok texts =>
    let (outcome, events) :=
      auditInterface parse settings candidate.interface candidate.subjects texts
    .decided ⟨name, outcome⟩ events
  | .error (.structural fault) => .decided ⟨name, .faulty fault⟩ []
  | .error (.outside path root) => .outside path root

/-- All that a run does, known from the project as it was found. -/
structure Plan where
  outputDirectory : Path
  decisions : List Decision
  skipped : List String
  types : Audit.TypesDocument
  events : List Event

def readIdl (tree : FileTree) (path : Path) : Except RunFault Idl.Document :=
  match tree.content? path with
  | none => .error (.missingIdl path)
  | some content =>
    match textOf content with
    | .error error => .error (.undecodableIdl error)
    | .ok text => (Idl.Document.parse text).mapError .invalidIdl

def plan (settings : Settings) (root : Path) (tree : FileTree) : Except RunFault Plan := do
  let idlPath := root.join settings.paths.idlFile
  let document ← readIdl tree idlPath
  let skipped := skippedNames document
  return {
    outputDirectory := root.join settings.paths.outputDirectory
    decisions := (candidates document).map (Candidate.decision parse settings tree root)
    skipped
    types := Audit.types settings.paths.idlFile.toString document
    events := .idlParsed idlPath document.definitions.length ::
      skipped.map .interfaceSkipped }

/-- A document is written as indented JSON and ends with a line feed. -/
def documentBytes (settings : Settings) (value : Json) : List UInt8 :=
  Text.encodeUtf8
    ((Json.print (.document settings.generation.indent.val) value).toList ++ ['\n'])

/-- A run changes the tree and leaves events; both stay when it is stopped. -/
structure RunState where
  tree : FileTree
  events : List Event

abbrev Running := ExceptT RunFault (StateM RunState)

def log (event : Event) : Running Unit :=
  modify fun state => { state with events := state.events ++ [event] }

/-- A change that is refused leaves the tree as it is. -/
def change (action : FileTree → Except FileFault FileTree) : Running Unit := do
  match action (← get).tree with
  | .ok tree => modify fun state => { state with tree }
  | .error fault => throw (.file fault)

def makeOutput (directory : Path) : Running Unit := do
  let (tree, fault) := (← get).tree.ensureDirectories directory
  modify fun state => { state with tree }
  match fault with
  | some fault => throw (.file fault)
  | none => pure ()

/-- An interface without a document loses the one of an earlier run. -/
def carryOut (settings : Settings) (directory : Path) : Decision → Running InterfaceResult
  | .outside path root => throw (.outside path root)
  | .decided result events => do
    events.forM log
    let path := documentPath directory result.interface
    match result.document? with
    | some document =>
      change fun tree => tree.write path (documentBytes settings document.json)
      log (.interfaceGenerated result.interface document.features.length)
    | none =>
      change fun tree => tree.remove path
      log (.interfaceFailed directory result)
    pure result

/-- The document of the types is written last. -/
def generateWith (settings : Settings) (root : Path) : Running Report := do
  match plan parse settings root (← get).tree with
  | .error fault => throw fault
  | .ok plan =>
    plan.events.forM log
    makeOutput plan.outputDirectory
    let results ← plan.decisions.mapM (carryOut settings plan.outputDirectory)
    let summary : Report := ⟨plan.outputDirectory, results, plan.skipped, plan.types⟩
    change fun tree =>
      tree.write (typesPath plan.outputDirectory) (documentBytes settings plan.types.json)
    log (.generationComplete summary)
    pure summary

end InterfaceAudit.Project
