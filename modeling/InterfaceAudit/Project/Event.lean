import InterfaceAudit.Project.Report

/-!
Events of a run, as they are logged.
-/

namespace InterfaceAudit.Project

/-- Levels are ordered by weight. -/
inductive Level where
  | debug
  | info
  | warning
  | error
  deriving DecidableEq, Repr

def Level.name : Level → String
  | .debug => "debug"
  | .info => "info"
  | .warning => "warning"
  | .error => "error"

def Level.weight : Level → Nat
  | .debug => 10
  | .info => 20
  | .warning => 30
  | .error => 40

inductive Event where
  | idlParsed (path : Path) (definitions : Nat)
  | interfaceSkipped (interface : String)
  | headerParsed (className : String) (methods staticMethods : Nat)
  | implementationParsed (className : String) (hasConstructor : Bool) (methods : Nat)
  | narrativeParsed (methods attributes : Nat)
  | memberMatched (interface member : String)
  | readonlyMismatch (interface member : String) (declared listed : Bool)
  | interfaceGenerated (interface : String) (features : Nat)
  | interfaceFailed (outputDirectory : Path) (result : InterfaceResult)
  | generationComplete (report : Report)
  | generationAborted (message : String)
  deriving DecidableEq, Repr

namespace Event

def level : Event → Level
  | idlParsed .. | headerParsed .. | implementationParsed .. | narrativeParsed ..
  | memberMatched .. => .debug
  | interfaceSkipped .. | interfaceGenerated .. | generationComplete .. => .info
  | readonlyMismatch .. => .warning
  | interfaceFailed .. | generationAborted .. => .error

def name : Event → String
  | idlParsed .. => "parsed_idl"
  | interfaceSkipped .. => "interface_skipped"
  | headerParsed .. => "parsed_header"
  | implementationParsed .. => "parsed_implementation"
  | narrativeParsed .. => "parsed_narrative"
  | memberMatched .. => "matched_member"
  | readonlyMismatch .. => "readonly_mismatch"
  | interfaceGenerated .. => "interface_generated"
  | interfaceFailed .. => "interface_failed"
  | generationComplete .. => "generation_complete"
  | generationAborted .. => "generation_aborted"

/-- What an event says beside its name and level. -/
def fields : Event → List (String × Json)
  | idlParsed path definitions =>
    [("path", .string path.toString), ("definitions", .nat definitions)]
  | interfaceSkipped interface =>
    [("interface", .string interface), ("reason", .string "no_members")]
  | headerParsed className methods staticMethods =>
    [("class_name", .string className), ("methods", .nat methods),
      ("static_methods", .nat staticMethods)]
  | implementationParsed className hasConstructor methods =>
    [("class_name", .string className), ("has_ctor", .bool hasConstructor),
      ("methods", .nat methods)]
  | narrativeParsed methods attributes =>
    [("methods", .nat methods), ("attributes", .nat attributes)]
  | memberMatched interface member =>
    [("interface", .string interface), ("member", .string member)]
  | readonlyMismatch interface member declared listed =>
    [("interface", .string interface), ("member", .string member),
      ("idl_readonly", .bool declared), ("narrative_readonly", .bool listed)]
  | interfaceGenerated interface features =>
    [("interface", .string interface), ("features", .nat features)]
  | interfaceFailed outputDirectory result =>
    match result.json outputDirectory with
    | .object fields => fields
    | _ => []
  | generationComplete report =>
    [("written", .nat report.written.length), ("failed", .nat report.failures.length),
      ("skipped", .nat report.skipped.length), ("features", .nat report.featureCount),
      ("dictionaries", .nat report.types.dictionaries.length),
      ("enums", .nat report.types.enumerations.length)]
  | generationAborted message => [("error", .string message)]

end Event

end InterfaceAudit.Project
