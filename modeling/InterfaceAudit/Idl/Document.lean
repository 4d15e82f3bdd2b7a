import InterfaceAudit.Idl.Grammar

/-!
Documents: the definitions of a file in file order, and what they add up to.
-/

namespace InterfaceAudit.Idl

structure Document where
  definitions : List Definition
  deriving DecidableEq, Repr

/-- Lines and columns are counted from one. -/
structure SyntaxError where
  line : Nat
  column : Nat
  deriving DecidableEq, Repr

def SyntaxError.message (error : SyntaxError) : String :=
  "Unexpected IDL text (line " ++ toString error.line ++ ", column " ++ toString error.column ++ ")"

/-- The place after a text: its line, and its column counted from the last line feed. -/
def SyntaxError.after (text : List Char) : SyntaxError where
  line := 1 + Text.newlines text
  column := 1 + (text.reverse.takeWhile (· != '\n')).length

/-- Every phrase begins on the line on which the one before it ends. -/
def place (line : Nat) : List (List Char × Found) → List Definition
  | [] => []
  | (source, found) :: others =>
    found.definition.withSpan
        (some ⟨line + found.lead, line + found.lead + found.extent⟩) ::
      place (line + Text.newlines source) others

/-- A text is accepted when its definitions reach its end; else the error stands where they stop. -/
def Document.parse (text : List Char) : Except SyntaxError Document :=
  match grammar.read file text with
  | some (((start, _), found), rest) =>
    if rest.isEmpty then .ok ⟨place (1 + Text.newlines start) found⟩
    else .error (SyntaxError.after (Grammar.consumed text rest))
  | none => .error ⟨1, 1⟩

/-- A subject of an audit is a member with code of its own. -/
inductive Subject where
  | «attribute» (member : Attribute)
  | method (name : String) (member : Operation)
  | constructor (member : Constructor)
  deriving DecidableEq, Repr

def Subject.name : Subject → String
  | .attribute member => member.name
  | .method name _ => name
  | .constructor _ => "constructor"

/-- Constants, collections and operations without a name have no code of their own. -/
def Member.subject? : Member → Option Subject
  | .attribute member => some (.attribute member)
  | .operation member => member.name.map fun name => .method name member
  | .constructor member => some (.constructor member)
  | .constant _ => none
  | .collection _ => none

namespace Document

def allInterfaces (document : Document) : List Interface :=
  document.definitions.filterMap fun definition =>
    match definition with
    | .interface interface => some interface
    | _ => none

def allDictionaries (document : Document) : List Dictionary :=
  document.definitions.filterMap fun definition =>
    match definition with
    | .dictionary dictionary => some dictionary
    | _ => none

def interfaces (document : Document) : List Interface :=
  document.allInterfaces.filter Interface.isPrimary

def dictionaries (document : Document) : List Dictionary :=
  document.allDictionaries.filter fun dictionary => !dictionary.isPartial

def enumerations (document : Document) : List Enumeration :=
  document.definitions.filterMap fun definition =>
    match definition with
    | .enumeration enumeration => some enumeration
    | _ => none

def inclusions (document : Document) : List Inclusion :=
  document.definitions.filterMap fun definition =>
    match definition with
    | .inclusion inclusion => some inclusion
    | _ => none

/-- The members of the plain interfaces of a name, complete or partial. -/
def ownMembers (document : Document) (name : String) (isPartial : Bool) : List Member :=
  (document.allInterfaces.filter fun interface =>
    interface.kind == .plain && interface.name == name && interface.isPartial == isPartial).flatMap
      Interface.members

def mixinMembers (document : Document) (mixin : String) : List Member :=
  (document.allInterfaces.filter fun interface =>
    interface.kind == .mixin && interface.name == mixin).flatMap Interface.members

/-- An interface has its own members, those of its parts and those of its mixins, in this order. -/
def membersOf (document : Document) (name : String) : List Member :=
  document.ownMembers name false ++ document.ownMembers name true ++
    (document.inclusions.filter fun inclusion => inclusion.target == name).flatMap fun inclusion =>
      document.mixinMembers inclusion.mixin

def ownFields (document : Document) (name : String) (isPartial : Bool) : List Field :=
  (document.allDictionaries.filter fun dictionary =>
    dictionary.name == name && dictionary.isPartial == isPartial).flatMap Dictionary.fields

/-- A dictionary has its own fields and then those of its parts. -/
def fieldsOf (document : Document) (name : String) : List Field :=
  document.ownFields name false ++ document.ownFields name true

def subjectsOf (document : Document) (name : String) : List Subject :=
  (document.membersOf name).filterMap Member.subject?

end Document

end InterfaceAudit.Idl
