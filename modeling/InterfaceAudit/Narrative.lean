import InterfaceAudit.Table
import InterfaceAudit.Text.Lines
import InterfaceAudit.Text.Search

/-!
Narratives: documents that list the attributes of an interface and the steps of its methods.
-/

namespace InterfaceAudit

structure Algorithm where
  signature : String
  isStatic : Bool
  steps : List String
  deriving DecidableEq, Repr

structure ListedAttribute where
  name : String
  type : String
  readonly : Bool
  deriving DecidableEq, Repr

structure Narrative where
  methods : Table Algorithm
  attributes : List ListedAttribute

namespace Narrative

open Text

/-- The text in front of the first place where one of the marks stands, and the text from there. -/
def splitAtMarks (marks : List (List Char)) : List Char → List Char × List Char
  | [] => ([], [])
  | c :: rest =>
    if marks.any fun mark => mark.isPrefixOf (c :: rest) then ([], c :: rest)
    else
      let (before, after) := splitAtMarks marks rest
      (c :: before, after)

/-- A text between backquotes is not empty. -/
def backquoted (text : List Char) : Option (List Char × List Char) := do
  let rest ← afterSpelling ['\x60'] text
  match rest.takeWhile (· != '\x60'), rest.dropWhile (· != '\x60') with
  | [], _ => none
  | content, _ :: rest => some (content, rest)
  | _, [] => none

def attributesHeading : List Char := "## Attributes\n\n".toList

/-- The first attribute section ends before the next heading or rule. -/
def attributeSection (text : List Char) : List Char :=
  match leftmost (afterSpelling attributesHeading) text with
  | some rest => (splitAtMarks ["\n## ".toList, "\n---".toList] rest).1
  | none => []

/-- An attribute line gives the name in bold and the type in parentheses and backquotes. -/
def listedAttribute? (line : List Char) : Option ListedAttribute := do
  let rest ← afterSpelling "- **".toList line
  let (name, rest) ← word rest
  let rest ← afterSpelling "** (".toList rest
  let (type, rest) ← backquoted rest
  let rest ← afterSpelling [')'] rest
  return ⟨String.ofList name, String.ofList type, " [ReadOnly]".toList.isPrefixOf rest⟩

def listedAttributes (text : List Char) : List ListedAttribute :=
  (Text.splitOn '\n' (attributeSection text)).filterMap listedAttribute?

/-- A step is a number, a point, a space and its text. -/
def step? (line : List Char) : Option (List Char) :=
  match line.takeWhile isDigit, line.dropWhile isDigit with
  | [], _ => none
  | _, '.' :: ' ' :: c :: rest => some (c :: rest)
  | _, _ => none

def staticMark : List Char := "**Static Method**".toList

/-- A method section is read from its heading to the next heading. -/
structure Section where
  name : List Char
  signature : List Char
  algorithm : List Char
  rest : List Char

/-- The static mark may stand between the heading and the signature. -/
def section? (text : List Char) : Option Section := do
  let rest ← afterSpelling "### ".toList text
  let (name, rest) ← word rest
  let rest ← afterSpelling "\n\n".toList rest
  let rest := (afterSpelling (staticMark ++ "\n\n".toList) rest).getD rest
  let rest ← afterSpelling "**Signature:** ".toList rest
  let (signature, rest) ← backquoted rest
  let rest ← afterSpelling "\n\n**Algorithm:**\n\n".toList rest
  let (algorithm, rest) := splitAtMarks ["\n### ".toList, "\n## ".toList] rest
  return ⟨name, signature, algorithm, rest⟩

/-- Every section with the text from its heading on. -/
def sections : List Char → List (List Char × Section)
  | [] => []
  | c :: tail =>
    match section? (c :: tail) with
    | some found =>
      if found.rest.length < (c :: tail).length then (c :: tail, found) :: sections found.rest
      else []
    | none => sections tail
termination_by text => text.length
decreasing_by
  · assumption
  · exact Nat.lt_succ_self _

/-- A window begins at a heading and has the given size; when its end would lie before the start of
the whole text, that end is counted from the end of the whole text instead. -/
def window (whole : Nat) (size : Int) (text : List Char) : List Char :=
  let start : Int := (whole : Int) - text.length
  if 0 ≤ start + size then text.take size.toNat else text.take ((whole : Int) + size).toNat

/-- A method is static when its window holds the static mark. -/
def algorithmOf (whole : Nat) (lookahead : Int) (text : List Char) (found : Section) :
    Algorithm where
  signature := String.ofList found.signature
  isStatic := contains staticMark (window whole lookahead text)
  steps := (Text.splitOn '\n' found.algorithm).filterMap fun line =>
    (step? line).map String.ofList

/-- The number of characters after a heading that are searched for the static mark. -/
def defaultLookahead : Nat := 200

/-- A repeated method keeps its first place and takes its last algorithm. -/
def read (lookahead : Int) (text : List Char) : Narrative :=
  let text := Text.joinReturns text
  { methods := (sections text).foldl (fun methods (start, found) =>
      methods.set (String.ofList found.name) (algorithmOf text.length lookahead start found)) .empty
    attributes := listedAttributes text }

def attribute? (narrative : Narrative) (name : String) : Option ListedAttribute :=
  narrative.attributes.find? fun listed => listed.name == name

end Narrative

end InterfaceAudit
