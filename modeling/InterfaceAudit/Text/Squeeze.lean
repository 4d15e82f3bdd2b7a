import InterfaceAudit.Text.CharClass

/-!
Squeezed spelling: the spacing of a source fragment is replaced by the spacing its pieces call for.
-/

namespace InterfaceAudit.Text

/-- Marks are brackets, commas and equals signs; they stand for themselves. -/
def isMark (c : Char) : Bool :=
  c == '<' || c == '>' || c == '(' || c == ')' || c == '[' || c == ']' || c == '=' || c == ','

def isPlain (c : Char) : Bool := !isMark c && !isBlank c

inductive Piece where
  | word (chars : List Char)
  | mark (c : Char)
  deriving DecidableEq, Repr

/-- A plain character joins the word that begins right after it. -/
def pieces : List Char → List Piece
  | [] => []
  | c :: rest =>
    if isMark c then .mark c :: pieces rest
    else if isBlank c then pieces rest
    else if rest.head?.any isPlain then
      match pieces rest with
      | .word chars :: others => .word (c :: chars) :: others
      | others => .word [c] :: others
    else .word [c] :: pieces rest

/-- One space stands between two words and after every comma. -/
def glue : List Piece → List Char
  | [] => []
  | .word first :: .word second :: rest => first ++ ' ' :: glue (.word second :: rest)
  | .word chars :: rest => chars ++ glue rest
  | .mark c :: rest => if c == ',' then ',' :: ' ' :: glue rest else c :: glue rest

def squeeze (text : List Char) : List Char := glue (pieces text)

end InterfaceAudit.Text
