import InterfaceAudit.Idl.Document
import InterfaceAudit.Symbols
import InterfaceAudit.Text.Kebab

/-!
Cross references: where a subject is declared, implemented and bound.
The name of each symbol follows from the name of the subject; nothing is guessed.
-/

namespace InterfaceAudit

open Idl (Subject)

/-- The artifacts are consulted in this order. -/
inductive Artifact where
  | header | implementation | wrapper
  deriving DecidableEq, Repr

def Artifact.name : Artifact → String
  | .header => "header"
  | .implementation => "implementation"
  | .wrapper => "wrapper"

/-- The paths that links and reports show. -/
structure ArtifactFiles where
  header : String
  implementation : String
  wrapper : String
  deriving DecidableEq, Repr

def ArtifactFiles.conventional (interface : String) : ArtifactFiles where
  header := "src/" ++ interface ++ ".h"
  implementation := "src/" ++ interface ++ ".cpp"
  wrapper := "lib/" ++ interface ++ ".ts"

def ArtifactFiles.path (files : ArtifactFiles) : Artifact → String
  | .header => files.header
  | .implementation => files.implementation
  | .wrapper => files.wrapper

structure CodeLink where
  file : String
  line : Nat
  endLine : Option Nat := none
  deriving DecidableEq, Repr

def CodeLink.at (file : String) (place : Place) : CodeLink := ⟨file, place.line, place.endLine⟩

structure CrossReference where
  declaration : Option CodeLink := none
  implementation : Option CodeLink := none
  binding : Option CodeLink := none
  test : Option CodeLink := none
  deriving DecidableEq, Repr

structure MissingSymbol where
  interface : String
  member : String
  memberKind : String
  expectedArtifact : String
  artifact : Artifact
  expectedSymbol : String
  deriving DecidableEq, Repr

def MissingSymbol.message (missing : MissingSymbol) : String :=
  "Missing symbol: " ++ missing.interface ++ "." ++ missing.member ++ " (" ++ missing.memberKind ++
    ") - expected " ++ missing.expectedSymbol ++ " in " ++ missing.expectedArtifact

/-- The symbols of one interface. -/
structure ArtifactSymbols where
  header : HeaderSymbols
  implementation : ImplementationSymbols
  wrapper : WrapperSymbols

/-- What is looked up for a subject: its kind, and a name and a shown symbol per artifact. -/
structure Demand where
  kind : String
  native : String
  bound : String
  headerTable : SymbolTable
  wrapperTable : SymbolTable

/-- A getter is looked up under its native name with `Get` in front. -/
def Demand.ofAttribute (symbols : ArtifactSymbols) (name : String) : Demand where
  kind := "attribute"
  native := "Get" ++ capitalize name
  bound := "get " ++ name ++ "()"
  headerTable := symbols.header.methods
  wrapperTable := symbols.wrapper.getters

/-- A static method is looked up among static methods, except in the implementation, where all
definitions are qualified alike. -/
def Demand.ofMethod (symbols : ArtifactSymbols) (name : String) (isStatic : Bool) : Demand :=
  if isStatic then
    { kind := "static-method"
      native := capitalize name
      bound := "static " ++ name ++ "()"
      headerTable := symbols.header.staticMethods
      wrapperTable := symbols.wrapper.staticMethods }
  else
    { kind := "method"
      native := capitalize name
      bound := name ++ "()"
      headerTable := symbols.header.methods
      wrapperTable := symbols.wrapper.methods }

/-- The first artifact without its symbol is reported. -/
def Demand.resolve (demand : Demand) (interface name : String) (implementation : SymbolTable)
    (files : ArtifactFiles) : Except MissingSymbol CrossReference :=
  let missing (artifact : Artifact) (symbol : String) : MissingSymbol :=
    { interface
      member := name
      memberKind := demand.kind
      expectedArtifact := files.path artifact
      artifact
      expectedSymbol := symbol }
  match demand.headerTable.get? demand.native with
  | none => .error (missing .header demand.native)
  | some declared =>
    match implementation.get? demand.native with
    | none => .error (missing .implementation (interface ++ "::" ++ demand.native))
    | some defined =>
      match demand.wrapperTable.get? name with
      | none => .error (missing .wrapper demand.bound)
      | some bound =>
        .ok
          { declaration := some ⟨files.header, declared.line, none⟩
            implementation := some (.at files.implementation defined)
            binding := some (.at files.wrapper bound) }

/-- A constructor is always declared, on the first line when the header does not list it. -/
def resolveConstructor (interface : String) (symbols : ArtifactSymbols) (files : ArtifactFiles) :
    CrossReference where
  declaration :=
    some ⟨files.header, ((symbols.header.methods.get? interface).map Place.line).getD 1, none⟩
  implementation := symbols.implementation.constructor.map (.at files.implementation)
  binding := symbols.wrapper.constructor.map (.at files.wrapper)

def resolve (interface : String) (subject : Subject) (symbols : ArtifactSymbols)
    (files : ArtifactFiles) : Except MissingSymbol CrossReference :=
  match subject with
  | .attribute member =>
    (Demand.ofAttribute symbols member.name).resolve interface member.name
      symbols.implementation.methods files
  | .method name member =>
    (Demand.ofMethod symbols name member.isStatic).resolve interface name
      symbols.implementation.methods files
  | .constructor _ => .ok (resolveConstructor interface symbols files)

end InterfaceAudit
