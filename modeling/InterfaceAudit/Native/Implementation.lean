import InterfaceAudit.Native.Header

/-!
Native implementations.
A qualified name in front of a parenthesis opens a body, and the braces of the lines that follow
tell where the body ends.
-/

namespace InterfaceAudit.Native

open Text

/-- A boundary lies between a word character and something else. -/
def isBoundary (before : Option Char) (text : List Char) : Bool :=
  before.any isWord != text.head?.any isWord

/-- The leftmost place, not inside a word, at which a reader succeeds. -/
def leftmostWord {Value : Type} (read : List Char → Option Value) (before : Option Char) :
    List Char → Option Value
  | [] => if isBoundary before [] then read [] else none
  | c :: rest =>
    match if isBoundary before (c :: rest) then read (c :: rest) else none with
    | some value => some value
    | none => leftmostWord read (some c) rest

/-- The text after the name of a class and the scope mark. -/
def afterScope (className text : List Char) : Option (List Char) :=
  afterSpelling (className ++ "::".toList) text

/-- The constructor is qualified by the class of its own name. -/
def definesConstructor (className line : List Char) : Bool :=
  (leftmostWord (fun text => do
    let rest ← afterScope className text
    let rest ← afterSpelling className rest
    match skipBlanks rest with
    | '(' :: _ => some ()
    | _ => none) none line).isSome

/-- The first name on a line that the class qualifies and a parenthesis follows. -/
def definedName? (className line : List Char) : Option (List Char) :=
  leftmostWord (fun text => do
    let rest ← afterScope className text
    wordBefore '(' rest) none line

/-- A body belongs to the constructor or to a method. -/
inductive Owner where
  | constructor
  | method (name : String)
  deriving DecidableEq, Repr

/-- At most one body is open, and its depth counts the braces since its first line. -/
structure Scan where
  symbols : ImplementationSymbols
  open? : Option Owner
  depth : Int

def Scan.empty : Scan := ⟨⟨none, .empty⟩, none, 0⟩

/-- The owner of the definition that starts on a line; a name that is known starts nothing. -/
def starts (className : List Char) (symbols : ImplementationSymbols) (line : List Char) :
    Option Owner :=
  if definesConstructor className line then
    if symbols.constructor.isNone then some .constructor else none
  else
    match definedName? className line with
    | some name =>
      if name == className || symbols.methods.contains (String.ofList name) then none
      else some (.method (String.ofList name))
    | none => none

def recordStart (symbols : ImplementationSymbols) (line : Nat) : Owner → ImplementationSymbols
  | .constructor => { symbols with constructor := some ⟨line, none⟩ }
  | .method name => { symbols with methods := symbols.methods.insertNew name ⟨line, none⟩ }

def recordEnd (symbols : ImplementationSymbols) (line : Nat) : Owner → ImplementationSymbols
  | .constructor =>
    { symbols with
      constructor := symbols.constructor.map fun place => { place with endLine := some line } }
  | .method name =>
    { symbols with
      methods := symbols.methods.adjust name fun place => { place with endLine := some line } }

/-- Opening braces count up and closing braces count down. -/
def braceBalance (line : List Char) : Int := (line.count '\x7b' : Int) - line.count '\x7d'

/-- A new definition abandons the open body. -/
def Scan.begin (className : List Char) (scan : Scan) (line : Nat × List Char) : Scan :=
  match starts className scan.symbols line.2 with
  | some owner => ⟨recordStart scan.symbols line.1 owner, some owner, 0⟩
  | none => scan

/-- The body ends on the first line with a closing brace after which no brace is open. -/
def Scan.count (scan : Scan) (line : Nat × List Char) : Scan :=
  match scan.open? with
  | some owner =>
    let depth := scan.depth + braceBalance line.2
    if depth == 0 && line.2.contains '\x7d' then
      ⟨recordEnd scan.symbols line.1 owner, none, depth⟩
    else { scan with depth }
  | none => scan

def Scan.step (className : List Char) (scan : Scan) (line : Nat × List Char) : Scan :=
  (scan.begin className line).count line

/-- The definitions of a class with the extents of their bodies. -/
def readImplementation (className : String) (text : List Char) : ImplementationSymbols :=
  ((Text.numbered 1 (Text.lines text)).foldl (Scan.step className.toList) Scan.empty).symbols

end InterfaceAudit.Native
