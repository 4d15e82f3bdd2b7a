import InterfaceAudit.Script.Node
import InterfaceAudit.Text.CharClass

/-!
Cursors in a script source and the gaps between its tokens.
-/

namespace InterfaceAudit.Script

/-- Script sources may hold a few invisible characters between tokens. -/
def isGapChar (c : Char) : Bool :=
  Text.isWhiteSpace c || c == '\uFEFF' || c == '\u200B' || c == '\u2060'

/-- A line comment does not reach over any of these. -/
def endsLine (c : Char) : Bool :=
  c == '\n' || c == '\r' || c == '\u2028' || c == '\u2029'

/-- What stands between two tokens. -/
structure Gap where
  stop : Point
  breaksLine : Bool
  comment : Option Span

inductive GapMode where
  | blank
  | lineComment (start : Point)
  | blockComment (start : Point)

/-- The first comment is kept. -/
def Gap.withComment (gap : Gap) (start stop : Point) : Gap :=
  { gap with comment := gap.comment <|> some ⟨start, stop⟩ }

def Gap.pass (gap : Gap) (c : Char) : Gap := { gap with stop := gap.stop.after c }

/-- A line break counts where it is not inside a comment. -/
def skipGap : GapMode → Gap → List Char → Gap × List Char
  | .blank, gap, [] => (gap, [])
  | .lineComment start, gap, [] => (gap.withComment start gap.stop, [])
  | .blockComment start, gap, [] => (gap.withComment start gap.stop, [])
  | .blank, gap, '/' :: '/' :: rest =>
    skipGap (.lineComment gap.stop) ((gap.pass '/').pass '/') rest
  | .blank, gap, '/' :: '*' :: rest =>
    skipGap (.blockComment gap.stop) ((gap.pass '/').pass '*') rest
  | .blockComment start, gap, '*' :: '/' :: rest =>
    let gap := (gap.pass '*').pass '/'
    skipGap .blank (gap.withComment start gap.stop) rest
  | .blockComment start, gap, c :: rest => skipGap (.blockComment start) (gap.pass c) rest
  | .lineComment start, gap, c :: rest =>
    if endsLine c then
      skipGap .blank
        { (gap.withComment start gap.stop).pass c with breaksLine := gap.breaksLine || c == '\n' }
        rest
    else skipGap (.lineComment start) (gap.pass c) rest
  | .blank, gap, c :: rest =>
    if isGapChar c then
      skipGap .blank { gap.pass c with breaksLine := gap.breaksLine || c == '\n' } rest
    else (gap, c :: rest)

/-- Where a phrase stands decides how it may go on: inside brackets a line break ends nothing, and
between the marks of a conditional an arrow function may not state its result. -/
structure Context where
  isEnclosed : Bool
  isBetweenMarks : Bool

/-- A cursor stands in front of the rest of a text and knows where the last token ended. -/
structure Cursor where
  rest : List Char
  point : Point
  last : Point
  context : Context

namespace Cursor

def ofText (text : List Char) : Cursor := ⟨text, .origin, .origin, ⟨false, false⟩⟩

def gap (cursor : Cursor) : Gap × List Char :=
  skipGap .blank ⟨cursor.point, false, none⟩ cursor.rest

/-- The cursor moves to the start of the next token. -/
def pastGap (cursor : Cursor) : Cursor :=
  let (gap, rest) := cursor.gap
  { cursor with rest, point := gap.stop }

/-- A token of a known length is passed. -/
def pass : Nat → Cursor → Cursor
  | count + 1, ⟨c :: rest, point, _, context⟩ =>
    pass count ⟨rest, point.after c, point.after c, context⟩
  | _, cursor => cursor

end Cursor

/-- A reader yields a value and moves the cursor, or it does not match. -/
abbrev Reader := StateT Cursor Option

namespace Reader

variable {Value : Type}

/-- The cursor stays where it is. -/
def ahead (read : Reader Value) : Reader Bool := fun cursor =>
  some ((read cursor).isSome, cursor)

/-- A condition on what follows. -/
def guarded (condition : Reader Bool) : Reader Unit := do
  if ← condition then pure () else failure

def notAhead (read : Reader Value) : Reader Unit := do
  if ← ahead read then failure

/-- A part is read in a context of its own. -/
def inside (context : Context) (read : Reader Value) : Reader Value := do
  let outer := (← get).context
  modify fun cursor => { cursor with context }
  let value ← read
  modify fun cursor => { cursor with context := outer }
  pure value

def enclosed (read : Reader Value) : Reader Value := inside ⟨true, false⟩ read

def inBlock (read : Reader Value) : Reader Value := inside ⟨false, false⟩ read

/-- Items are read as long as one matches and moves the cursor. -/
def collect (read : Reader (List Value)) (cursor : Cursor) : List Value × Cursor :=
  match read cursor with
  | some (items, next) =>
    if next.rest.length < cursor.rest.length then
      let (others, final) := collect read next
      (items ++ others, final)
    else ([], cursor)
  | none => ([], cursor)
termination_by cursor.rest.length

def many (read : Reader (List Value)) : Reader (List Value) := fun cursor =>
  some (collect read cursor)

/-- A value is revised as long as a step matches and moves the cursor. -/
def revise (step : Value → Reader Value) (value : Value) (cursor : Cursor) : Value × Cursor :=
  match step value cursor with
  | some (revised, next) =>
    if next.rest.length < cursor.rest.length then revise step revised next else (value, cursor)
  | none => (value, cursor)
termination_by cursor.rest.length

def revising (step : Value → Reader Value) (value : Value) : Reader Value := fun cursor =>
  some (revise step value cursor)

/-- The span runs from the next token to the last one that is read. -/
def spanned (read : Reader Value) : Reader (Span × Value) := do
  modify Cursor.pastGap
  let start := (← get).point
  let value ← read
  pure (⟨start, (← get).last⟩, value)

/-- A token is measured by a scanner, which gives zero where there is none. -/
def lexeme (measure : List Char → Nat) : Reader (List Char) := do
  modify Cursor.pastGap
  let cursor ← get
  match measure cursor.rest with
  | 0 => failure
  | length => do
    set (cursor.pass length)
    pure (cursor.rest.take length)

/-- Punctuation is matched by its spelling alone. -/
def mark (spelling : String) : Reader Unit := do
  let _ ← lexeme fun rest => if spelling.toList.isPrefixOf rest then spelling.length else 0

/-- A condition on the characters of the next token. -/
def facing (condition : List Char → Bool) : Reader Bool := do
  pure (condition (← get).pastGap.rest)

def onNewLine : Reader Bool := do
  pure (← get).gap.1.breaksLine

/-- A line break ends a statement unless brackets are open. -/
def onSameLine : Reader Unit := do
  if !(← get).context.isEnclosed && (← onNewLine) then failure

end Reader

end InterfaceAudit.Script
