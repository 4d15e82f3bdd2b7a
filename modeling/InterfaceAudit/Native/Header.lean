import InterfaceAudit.Symbols
import InterfaceAudit.Text.Lines
import InterfaceAudit.Text.Search

/-!
Native headers.
A declaration is known by the shape of its line, and the first declaration of a name counts.
-/

namespace InterfaceAudit.Native

open Text

/-- The spellings that mark an instance method when no others are given. -/
def defaultReturnTypes : List String := ["Napi::Value", "void", "bool"]

/-- The name between the word for a class and a colon. -/
def className? (text : List Char) : Option (List Char) :=
  leftmost (fun text => do
    let rest ← afterSpelling "class".toList text
    let rest ← skipSomeBlanks rest
    wordBefore ':' rest) text

/-- A static declaration names its type in one piece. -/
def staticName? (line : List Char) : Option (List Char) := do
  let rest ← afterSpelling "static".toList (skipBlanks line)
  let rest ← skipSomeBlanks rest
  match rest with
  | c :: _ =>
    if isBlank c then none
    else
      let rest ← skipSomeBlanks (rest.dropWhile fun c => !isBlank c)
      wordBefore '(' rest
  | [] => none

/-- The name after a return type, when the text begins with the type. -/
def nameAfterType (returnType text : List Char) : Option (List Char) := do
  let rest ← afterSpelling returnType text
  let rest ← skipSomeBlanks rest
  wordBefore '(' rest

/-- The rest of a line after all, all but one, ..., none of its leading blanks. -/
def indentSplits : List Char → List (List Char)
  | [] => [[]]
  | c :: rest => if isBlank c then indentSplits rest ++ [c :: rest] else [c :: rest]

/-- No spelling at all means the empty one. -/
def spellingsOf (returnTypes : List String) : List (List Char) :=
  if returnTypes.isEmpty then [[]] else returnTypes.map String.toList

/-- An instance declaration begins with one of the known return types. -/
def methodName? (returnTypes : List (List Char)) (line : List Char) : Option (List Char) :=
  (indentSplits line).findSome? fun rest =>
    returnTypes.findSome? fun returnType => nameAfterType returnType rest

inductive Declared where
  | static (name : String)
  | instance (name : String)
  deriving DecidableEq, Repr

/-- A line that declares a static method declares nothing else. -/
def declared? (returnTypes : List (List Char)) (line : List Char) : Option Declared :=
  match staticName? line with
  | some name => some (.static (String.ofList name))
  | none => (methodName? returnTypes line).map fun name => .instance (String.ofList name)

def record (returnTypes : List (List Char)) (symbols : HeaderSymbols) (line : Nat × List Char) :
    HeaderSymbols :=
  match declared? returnTypes line.2 with
  | some (.static name) =>
    { symbols with staticMethods := symbols.staticMethods.insertNew name ⟨line.1, none⟩ }
  | some (.instance name) =>
    { symbols with methods := symbols.methods.insertNew name ⟨line.1, none⟩ }
  | none => symbols

/-- The symbols of a header, given the spellings of return types that are recognized. -/
def readHeader (returnTypes : List String) (text : List Char) : HeaderSymbols :=
  (Text.numbered 1 (Text.lines text)).foldl (record (spellingsOf returnTypes))
    { className := ((className? text).map String.ofList).getD ""
      methods := .empty
      staticMethods := .empty }

end InterfaceAudit.Native
