import InterfaceAudit.Script.Classes

/-!
Expressions in script sources.
Operators are read in a row, since their precedence changes nothing about the calls they join.
-/

namespace InterfaceAudit.Script.Reader

variable (read : Phrase → NodeReader)

/-- Between the marks of a conditional a colon ends the first choice. -/
def arrowSignature : NodeReader := do
  if (← get).context.isBetweenMarks then
    optional (typeParameters read) ++ parameters read
  else signature read

/-- The parameters of an arrow function, up to the arrow. -/
def arrowHead : NodeReader :=
  (arrowSignature read <|> skip identifier) ++ symbol "=>"

def arrowFunction : NodeReader :=
  (wordOf "async" ++ sameLine ++ arrowHead read <|> arrowHead read) ++
    (block read <|> read .assignment)

def functionExpression : NodeReader :=
  optional (wordOf "async" ++ sameLine) ++ wordOf "function" ++ optional (symbol "*") ++
    optional (skip word) ++ signature read ++ block read

/-- A property is spread, a method, a value under a name, or a variable under its own name. -/
def objectProperty : NodeReader :=
  symbol "..." ++ read .assignment <|> method read <|>
    (do pure (← memberName read).children) ++ symbol ":" ++ read .assignment <|>
    skip identifier ++ optional (initialized read)

def object : NodeReader := within "\x7b" "\x7d" (listed (objectProperty read))

def array : NodeReader :=
  within "[" "]" (listed (optional (symbol "...") ++ read .assignment))

/-- The word `import` stands for a value when it is called or asked for its properties. -/
def importWord : NodeReader :=
  wordOf "import" ++ condition (guarded (facing fun text =>
    text.head? == some '(' || text.head? == some '.'))

def creation : NodeReader :=
  wordOf "new" ++ (symbol "." ++ skip word <|> read .creation)

def primary : NodeReader :=
  arrowFunction read <|> functionExpression read <|> classExpression read <|> creation read <|>
    importWord <|> within "(" ")" (read .expression) <|> array read <|> object read <|> quoted <|>
    template read .expression <|> skip number <|> skip regularExpression <|>
    skip (lexeme privateNameLength) <|> skip identifier

/-- A point leads to a property, unless digits follow the question mark before it. -/
def chainMark : NodeReader :=
  skip (lexeme fun text =>
    match text with
    | '?' :: '.' :: rest => if rest.head?.any Text.isAsciiDigit then 0 else 2
    | _ => 0)

def propertyName : NodeReader := skip word <|> skip (lexeme privateNameLength)

def index : NodeReader := within "[" "]" (read .expression)

/-- An exclamation mark alone asserts that a value is present. -/
def presence : NodeReader :=
  sameLine ++ condition (notAhead (mark "!=")) ++ symbol "!"

/-- A suffix that leads from a value to one of its properties. -/
def access : NodeReader :=
  symbol "." ++ propertyName <|> index read <|> template read .expression <|> presence

/-- What is created may be reached through properties, and its arguments are no call. -/
def created : NodeReader :=
  (creation read <|> primary read) ++ many (access read) ++ optional (typeArguments read) ++
    optional (named (Node.withRole .member <$> arguments read))

/-- Type arguments without a call are followed by something that starts no operand. -/
def endsInstance (text : List Char) : Bool :=
  !(wordLength text != 0 || numberLength text != 0 || stringLength text != 0 ||
    "[\x7b<>+-~/@#".toList.any (fun c => text.head? == some c) ||
    (text.head? == some '!' && (text.drop 1).head? != some '='))

def instanceArguments : NodeReader :=
  typeArguments read ++ condition (guarded (do pure ((← facing endsInstance) || (← onNewLine))))

/-- A suffix makes a call, leads on, or changes the value before it. -/
def suffix (start : Point) (nodes : List Node) : NodeReader :=
  callOn read start nodes (optional chainMark ++ optional (typeArguments read)) <|>
    (pure nodes : NodeReader) ++
      (chainMark ++ (index read <|> template read .expression <|> propertyName) <|>
        access read <|> instanceArguments read <|>
        sameLine ++ (symbol "++" <|> symbol "--"))

def operandWords : List String := ["typeof", "void", "delete", "await", "yield"]

def startsOperand (text : List Char) : Bool :=
  wordLength text != 0 || numberLength text != 0 || stringLength text != 0 ||
    "([\x7b\x60<+-!~/@#".toList.any fun c => text.head? == some c

/-- An operand may be preceded by signs, by words, or by a type in angle brackets. -/
def operandSign : NodeReader :=
  symbol "++" <|> symbol "--" <|> symbol "!" <|> symbol "~" <|> symbol "+" <|> symbol "-" <|>
    oneWordOf operandWords ++ condition (guarded (facing startsOperand)) ++
      condition (notAhead (oneOf ["in", "instanceof", "of"])) ++
      condition (notAhead (mark "=>")) <|>
    condition (notAhead (arrowHead read)) ++ typeArguments read

def operand : NodeReader := do
  let signs ← many (operandSign read)
  modify Cursor.pastGap
  let start := (← get).point
  let value ← primary read
  let nodes ← revising (suffix read start) value
  pure (signs ++ nodes)

/-- Longer operators come before the operators that they start with. -/
def operatorSpellings : List String :=
  [">>>=", "===", "!==", "**=", "<<=", ">>=", ">>>", "&&=", "||=", "??=", "==", "!=", "<=", ">=",
    "&&", "||", "??", "**", "<<", ">>", "+=", "-=", "*=", "/=", "%=", "&=", "|=", "^=", "+", "-",
    "*", "/", "%", "<", ">", "&", "|", "^", "="]

/-- An arrow and the doubled signs join no operands. -/
def operatorLength (text : List Char) : Nat :=
  if ["=>", "++", "--"].any fun spelling => spelling.toList.isPrefixOf text then 0
  else
    ((operatorSpellings.find? fun spelling => spelling.toList.isPrefixOf text).map
      String.length).getD 0

def operator : NodeReader :=
  skip (lexeme operatorLength) <|> oneWordOf ["in", "instanceof"]

/-- A value is seen as another type. -/
def ascription : NodeReader := sameLine ++ oneWordOf ["as", "satisfies"] ++ read .type

/-- The first choice may be an arrow function that states its result, if a colon is left. -/
def choice : NodeReader := do
  guarded (facing fun text => text.head? == some '?')
  condition (notAhead chainMark) ++ condition (notAhead (mark "??")) ++ symbol "?" ++ do
    let context := (← get).context
    (inside { context with isBetweenMarks := false } (read .assignment) ++ symbol ":" <|>
      inside { context with isBetweenMarks := true } (read .assignment) ++ symbol ":") ++
      read .assignment

def assignment : NodeReader :=
  operand read ++ many (operator ++ operand read <|> ascription read <|> choice read)

def expression : NodeReader := separated (read .assignment)

end InterfaceAudit.Script.Reader
