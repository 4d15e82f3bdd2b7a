import InterfaceAudit.Script.Statements
import InterfaceAudit.Script.Tests
import InterfaceAudit.Script.Wrapper

/-!
Script sources as syntax trees.
An audit takes any reader of scripts; the one here is the reader that the program comes with.
-/

namespace InterfaceAudit.Script

/-- A phrase is read with the readers of the phrases inside it. -/
def Phrase.reader (read : Phrase → NodeReader) : Phrase → NodeReader
  | .statement => Reader.statement read
  | .expression => Reader.expression read
  | .assignment => Reader.assignment read
  | .operand => Reader.operand read
  | .creation => Reader.created read
  | .type => Reader.type read
  | .pattern => Reader.pattern read

/-- Phrases are read to a bounded depth. -/
def Phrase.readWithin : Nat → Phrase → Cursor → Option (List Node × Cursor)
  | 0, _, _ => none
  | depth + 1, phrase, cursor => phrase.reader (readWithin depth) cursor

/-- A first line that starts with a number sign and an exclamation mark names an interpreter. -/
def interpreterLength : List Char → Nat
  | '#' :: '!' :: rest => 2 + (rest.takeWhile fun c => !endsLine c).length
  | _ => 0

/-- A text holds statements; what is none is passed over. -/
def Reader.program (read : Phrase → NodeReader) : NodeReader :=
  optional (skip (lexeme interpreterLength)) ++
    many (read .statement <|> passOver <|> symbol "\x7d")

/-- Every few levels of phrases take a character of the text, so the depth never runs out. -/
def Tree.ofText (text : String) : Tree :=
  let source := text.toList
  let depth := 8 * (source.length + 1)
  match Reader.spanned (Reader.program (Phrase.readWithin depth)) (.ofText source) with
  | some ((span, nodes), _) => ⟨source, .mk .program .member span nodes⟩
  | none => ⟨source, .mk .program .member ⟨.origin, .origin⟩ []⟩

end InterfaceAudit.Script

namespace InterfaceAudit

def WrapperSymbols.ofText? (text : String) : Option WrapperSymbols := ofTree? (.ofText text)

def TestSymbols.ofText (vocabulary : TestVocabulary) (text : String) : TestSymbols :=
  ofTree vocabulary (.ofText text)

end InterfaceAudit
