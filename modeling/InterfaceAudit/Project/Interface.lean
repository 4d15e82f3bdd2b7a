import InterfaceAudit.Audit.Feature
import InterfaceAudit.Native.Implementation
import InterfaceAudit.Project.Event
import InterfaceAudit.Project.Reading
import InterfaceAudit.Script.Tests
import InterfaceAudit.Script.Wrapper

/-!
The audit of one interface: its subjects are matched with the symbols of its artifacts.
-/

namespace InterfaceAudit.Project

open Idl (Subject)

/-- What is known about an interface when its subjects are matched. -/
structure Evidence where
  interface : String
  layout : Layout
  symbols : ArtifactSymbols
  narrative : Option Narrative
  tests : Option TestSymbols

/-- The group of tests that is named after a subject. -/
def Evidence.testLink (evidence : Evidence) (subject : Subject) : Option CodeLink := do
  let tests ← evidence.tests
  let place ← tests.groups.get? subject.name
  return .at evidence.layout.tests.toString place

/-- A narrative that lists an attribute may disagree about whether it can be written. -/
def Evidence.mismatch (evidence : Evidence) : Subject → List Event
  | .attribute member =>
    match evidence.narrative.bind fun narrative => narrative.attribute? member.name with
    | some listed =>
      if listed.readonly != member.readonly then
        [.readonlyMismatch evidence.interface member.name member.readonly listed.readonly]
      else []
    | none => []
  | _ => []

/-- The matches of some subjects, with what was logged on the way. -/
structure Matches where
  features : List Audit.Feature
  missing : List MissingSymbol
  events : List Event

namespace Evidence

def matchSubject (evidence : Evidence) (subject : Subject) :
    Except MissingSymbol (Audit.Feature × List Event) := do
  let links ← resolve evidence.interface subject evidence.symbols evidence.layout.linked
  let links := { links with test := evidence.testLink subject }
  return (Audit.feature evidence.interface subject links evidence.narrative
      evidence.layout.narrativeRef,
    .memberMatched evidence.interface subject.name :: evidence.mismatch subject)

/-- Matching stops at a missing symbol unless all of them are wanted. -/
def matchSubjects (evidence : Evidence) (policy : Settings.MissingSymbolPolicy) :
    List Subject → Matches
  | [] => ⟨[], [], []⟩
  | subject :: others =>
    match evidence.matchSubject subject, policy with
    | .ok (feature, events), _ =>
      let rest := evidence.matchSubjects policy others
      { rest with features := feature :: rest.features, events := events ++ rest.events }
    | .error missing, .first => ⟨[], [missing], []⟩
    | .error missing, .all =>
      let rest := evidence.matchSubjects policy others
      { rest with missing := missing :: rest.missing }

end Evidence

/-- An audit without missing symbols gives a document. -/
def auditDocument (settings : Settings) (interface : Idl.Interface) (layout : Layout)
    (texts : ArtifactTexts) (features : List Audit.Feature) : Audit.InterfaceDocument where
  interface := interface.name
  idlSource := Audit.idlSource settings.paths.idlFile.toString interface.span
  specSource := texts.narrative.map fun _ => layout.narrativeRef
  inheritance := interface.inheritance
  extAttrs := interface.extAttrs
  files := layout.shown
  features

def nativeEvents (interface : String) (header : HeaderSymbols)
    (implementation : ImplementationSymbols) : List Event :=
  [.headerParsed header.className header.methods.size header.staticMethods.size,
    .implementationParsed interface implementation.constructor.isSome implementation.methods.size]

def narrativeEvents : Option Narrative → List Event
  | some narrative => [.narrativeParsed narrative.methods.size narrative.attributes.length]
  | none => []

/-- The wrapper has to declare a class. Wrapper and tests are looked at as the syntax trees that a
reader of scripts makes of them. -/
def auditInterface (parse : String → Script.Tree) (settings : Settings)
    (interface : Idl.Interface) (subjects : List Subject) (texts : ArtifactTexts) :
    Outcome × List Event :=
  let layout := Layout.ofInterface settings.paths interface.name
  let header := Native.readHeader settings.parsing.returnTypes texts.header
  let implementation := Native.readImplementation interface.name texts.implementation
  let started := nativeEvents interface.name header implementation
  match WrapperSymbols.ofTree? (parse (String.ofList texts.wrapper)) with
  | none => (.faulty (.noClass layout.wrapper), started)
  | some wrapper =>
    let narrative := texts.narrative.map (Narrative.read settings.parsing.lookahead.val)
    let tests := texts.tests.map fun text =>
      TestSymbols.ofTree settings.parsing.vocabulary (parse (String.ofList text))
    let evidence : Evidence :=
      ⟨interface.name, layout, ⟨header, implementation, wrapper⟩, narrative, tests⟩
    let matched := evidence.matchSubjects settings.generation.policy subjects
    let events := started ++ narrativeEvents narrative ++ matched.events
    if matched.missing.isEmpty then
      (.audited (auditDocument settings interface layout texts matched.features), events)
    else (.unmatched matched.missing, events)

end InterfaceAudit.Project
