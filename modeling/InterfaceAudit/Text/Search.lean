import InterfaceAudit.Text.CharClass

/-!
Finding spellings and words at the start of a text or anywhere in it.
-/

namespace InterfaceAudit.Text

def skipBlanks (text : List Char) : List Char := text.dropWhile isBlank

/-- At least one blank is skipped. -/
def skipSomeBlanks (text : List Char) : Option (List Char) :=
  match text with
  | c :: rest => if isBlank c then some (skipBlanks rest) else none
  | [] => none

def afterSpelling (spelling text : List Char) : Option (List Char) :=
  if spelling.isPrefixOf text then some (text.drop spelling.length) else none

/-- A word that is followed by a mark, with blanks allowed between them. -/
def wordBefore (mark : Char) (text : List Char) : Option (List Char) :=
  match text.takeWhile isWord, skipBlanks (text.dropWhile isWord) with
  | [], _ => none
  | word, c :: _ => if c == mark then some word else none
  | _, [] => none

/-- The leftmost place at which a reader succeeds. -/
def leftmost {Value : Type} (read : List Char → Option Value) : List Char → Option Value
  | [] => read []
  | c :: rest =>
    match read (c :: rest) with
    | some value => some value
    | none => leftmost read rest

/-- A word is not empty. -/
def word (text : List Char) : Option (List Char × List Char) :=
  match text.takeWhile isWord with
  | [] => none
  | word => some (word, text.dropWhile isWord)

def contains (part text : List Char) : Bool := (leftmost (afterSpelling part) text).isSome

end InterfaceAudit.Text
