/-!
Lines of a text.
-/

namespace InterfaceAudit.Text

/-- These characters end a line; a carriage return and the line feed after it end it together. -/
def isLineBreak (c : Char) : Bool :=
  (10 ≤ c.toNat && c.toNat ≤ 13) || (0x1C ≤ c.toNat && c.toNat ≤ 0x1E) || c.toNat == 0x85 ||
    c.toNat == 0x2028 || c.toNat == 0x2029

/-- The accumulator holds the current line, last character first. -/
def linesAfter (line : List Char) : List Char → List (List Char)
  | [] => if line.isEmpty then [] else [line.reverse]
  | '\r' :: '\n' :: rest => line.reverse :: linesAfter [] rest
  | c :: rest =>
    if isLineBreak c then line.reverse :: linesAfter [] rest
    else linesAfter (c :: line) rest

/-- The lines of a text are what its line breaks end, and what is left after the last one. -/
def lines (text : List Char) : List (List Char) := linesAfter [] text

/-- Lines are numbered from one. -/
def numbered (start : Nat) : List (List Char) → List (Nat × List Char)
  | [] => []
  | line :: rest => (start, line) :: numbered (start + 1) rest

/-- The pieces between marks; a text without a mark is its only piece. -/
def splitOn (mark : Char) : List Char → List (List Char)
  | [] => [[]]
  | c :: rest =>
    if c == mark then [] :: splitOn mark rest
    else
      match splitOn mark rest with
      | piece :: pieces => (c :: piece) :: pieces
      | [] => [[c]]

def newlines (text : List Char) : Nat := text.count '\n'

/-- Both line ends of other systems become a line feed. -/
def universalNewlines : List Char → List Char
  | [] => []
  | '\r' :: '\n' :: rest => '\n' :: universalNewlines rest
  | c :: rest => (if c == '\r' then '\n' else c) :: universalNewlines rest

/-- Only a carriage return that a line feed follows is dropped. -/
def joinReturns : List Char → List Char
  | [] => []
  | '\r' :: '\n' :: rest => '\n' :: joinReturns rest
  | c :: rest => c :: joinReturns rest

end InterfaceAudit.Text
