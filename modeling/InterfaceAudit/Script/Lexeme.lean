import InterfaceAudit.Script.Cursor

/-!
Tokens of script sources.
A scanner gives the length of the token at the start of a text, and zero where there is none.
-/

namespace InterfaceAudit.Script

/-- Punctuation and control characters belong to no word. -/
def isPunctuation (c : Char) : Bool :=
  c.toNat < 32 || ":;`\x22'@#.,|^&<=>+-*/\\%?!~()[]\x7b\x7d".toList.contains c

/-- A word goes on with any character that is neither punctuation nor a gap. -/
def isNamePart (c : Char) : Bool := !isPunctuation c && !isGapChar c

/-- A word may write a character as an escape; a long escape ends with its brace. -/
def wordTail : Bool → List Char → Nat
  | _, [] => 0
  | false, '\\' :: 'u' :: '\x7b' :: rest => 3 + wordTail true rest
  | false, '\\' :: 'u' :: rest => 2 + wordTail false rest
  | true, c :: rest =>
    if c == '\x7d' then 1 + wordTail false rest
    else if Text.isHexDigit c then 1 + wordTail true rest
    else 0
  | false, c :: rest => if isNamePart c then 1 + wordTail false rest else 0

/-- A word does not start with a digit. -/
def wordLength : List Char → Nat
  | [] => 0
  | c :: rest => if Text.isAsciiDigit c then 0 else wordTail false (c :: rest)

/-- A private name starts with a number sign. -/
def privateNameLength : List Char → Nat
  | '#' :: rest => if wordLength rest = 0 then 0 else 1 + wordLength rest
  | _ => 0

/-- What follows the opening quote, with the closing one; a backslash hides the next character. -/
def quotedTail (quote : Char) : List Char → Option Nat
  | [] => none
  | '\\' :: _ :: rest => (quotedTail quote rest).map (· + 2)
  | c :: rest => if c == quote then some 1 else (quotedTail quote rest).map (· + 1)

def stringLength : List Char → Nat
  | c :: rest =>
    if c == '\'' || c == '\x22' then ((quotedTail c rest).map (· + 1)).getD 0 else 0
  | [] => 0

def isDigitPart (c : Char) : Bool := Text.isAsciiDigit c || c == '_'

def digitsLength (text : List Char) : Nat := (text.takeWhile isDigitPart).length

/-- An exponent needs a digit. -/
def exponentLength : List Char → Nat
  | e :: sign :: rest =>
    if e == 'e' || e == 'E' then
      if sign == '+' || sign == '-' then
        if digitsLength rest = 0 then 0 else 2 + digitsLength rest
      else
        if digitsLength (sign :: rest) = 0 then 0 else 1 + digitsLength (sign :: rest)
    else 0
  | _ => 0

/-- A fraction is a point and the digits after it, if any. -/
def fractionLength : List Char → Nat
  | '.' :: rest => 1 + digitsLength rest
  | _ => 0

/-- A number in another base goes on while letters and digits follow. -/
def basedLength : List Char → Nat
  | '0' :: base :: rest =>
    if "xXoObB".toList.contains base then
      2 + (rest.takeWhile fun c => Text.isHexDigit c || c == '_' || c == 'n').length
    else 0
  | _ => 0

def decimalLength (text : List Char) : Nat :=
  let whole := digitsLength text
  let fraction := fractionLength (text.drop whole)
  if whole = 0 && fraction ≤ 1 then 0
  else if (text.drop whole).head? == some 'n' then whole + 1
  else whole + fraction + exponentLength (text.drop (whole + fraction))

def numberLength (text : List Char) : Nat :=
  match text with
  | [] => 0
  | '_' :: _ => 0
  | _ => if basedLength text = 0 then decimalLength text else basedLength text

/-- Inside a class of characters a slash does not end a regular expression. -/
def regularExpressionTail : Bool → List Char → Option Nat
  | _, [] => none
  | isInClass, '\\' :: _ :: rest => (regularExpressionTail isInClass rest).map (· + 2)
  | isInClass, c :: rest =>
    if c == '\n' then none
    else if c == '/' && !isInClass then some 1
    else
      let isInClass := if c == '[' then true else if c == ']' then false else isInClass
      (regularExpressionTail isInClass rest).map (· + 1)

/-- A regular expression ends with the letters of its flags. -/
def regularExpressionLength : List Char → Nat
  | '/' :: rest =>
    match regularExpressionTail false rest with
    | some length => 1 + length + ((rest.drop length).takeWhile Text.isAsciiLetter).length
    | none => 0
  | _ => 0

/-- The text of a template up to its end or to the next embedded expression. -/
def templateTextLength : List Char → Nat
  | [] => 0
  | '\x60' :: _ => 0
  | '$' :: '\x7b' :: _ => 0
  | '\\' :: _ :: rest => 2 + templateTextLength rest
  | _ :: rest => 1 + templateTextLength rest

/-- Words that stand for no value and name no variable. -/
def reservedWords : List String :=
  ["break", "case", "catch", "class", "const", "continue", "debugger", "default", "delete", "do",
    "else", "enum", "export", "extends", "finally", "for", "function", "if", "import", "in",
    "instanceof", "new", "return", "switch", "throw", "try", "typeof", "var", "void", "while",
    "with"]

namespace Reader

def word : Reader String := do
  pure (String.ofList (← lexeme wordLength))

def keyword (spelling : String) : Reader Unit := do
  guarded (do pure ((← word) == spelling))

/-- One of several words. -/
def oneOf (spellings : List String) : Reader String := do
  let spelling ← word
  if spellings.contains spelling then pure spelling else failure

/-- A word that may name a variable. -/
def identifier : Reader Unit := do
  let spelling ← word
  if reservedWords.contains spelling then failure

def literalNode (read : Reader (List Node)) : Reader (List Node) := do
  let (span, nodes) ← spanned read
  pure [.mk .literal .member span nodes]

def quoted : Reader (List Node) :=
  literalNode do
    let _ ← lexeme stringLength
    pure []

def number : Reader Unit := do
  let _ ← lexeme numberLength

/-- A regular expression stands where an operand may start. -/
def regularExpression : Reader Unit := do
  let _ ← lexeme regularExpressionLength

/-- The text of a template is part of a token, so no gap comes before it. -/
def templateText : Reader Unit := do
  modify fun cursor => cursor.pass (templateTextLength cursor.rest)

/-- The next characters continue a token. -/
def close (spelling : List Char) : Reader Unit := do
  let cursor ← get
  if spelling.isPrefixOf cursor.rest then set (cursor.pass spelling.length) else failure

end Reader

end InterfaceAudit.Script
