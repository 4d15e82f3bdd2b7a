import InterfaceAudit.Script.Lexeme

/-!
Parts that the phrases of a script share: arguments, decorators, names, parameters and blocks.
Every reader of a phrase is given the readers of the phrases inside it.
-/

namespace InterfaceAudit.Script

/-- The phrases that contain one another. -/
inductive Phrase where
  | statement
  | expression
  | assignment
  | operand
  | creation
  | type
  | pattern

/-- What a phrase holds. -/
abbrev NodeReader := Reader (List Node)

/-- One part after another. -/
instance : Append NodeReader where
  append first second := do pure ((← first) ++ (← second))

namespace Reader

def optional (read : NodeReader) : NodeReader := read <|> pure []

def skip {Value : Type} (read : Reader Value) : NodeReader := do
  let _ ← read
  pure []

def symbol (spelling : String) : NodeReader := skip (mark spelling)

def wordOf (spelling : String) : NodeReader := skip (keyword spelling)

def oneWordOf (spellings : List String) : NodeReader := skip (oneOf spellings)

def condition (read : Reader Unit) : NodeReader := skip read

def sameLine : NodeReader := skip onSameLine

/-- Items with commas between them. -/
def separated (item : NodeReader) : NodeReader := item ++ many (symbol "," ++ item)

/-- Items and commas in any order. -/
def listed (item : NodeReader) : NodeReader := many (symbol "," <|> item)

def within (opening closing : String) (read : NodeReader) : NodeReader :=
  symbol opening ++ enclosed read ++ symbol closing

/-- A phrase of its own in the tree. -/
def asNode (kind : Kind) (role : Role) (read : NodeReader) : Reader Node := do
  let (span, nodes) ← spanned read
  pure (.mk kind role span nodes)

section

variable (read : Phrase → NodeReader)

def typeArguments : NodeReader := symbol "<" ++ separated (read .type) ++ symbol ">"

/-- A comment in front of the first argument stands among the arguments. -/
def leadingComment : NodeReader := do
  match (← get).gap.1.comment with
  | some span => pure [.mk .comment .member span []]
  | none => pure []

/-- An argument that is nothing but a literal is that literal. -/
def argument : NodeReader := do
  let (span, nodes) ← spanned (optional (symbol "...") ++ read .assignment)
  pure [.joining span nodes]

def arguments : Reader Node :=
  asNode .arguments .arguments
    (symbol "(" ++ enclosed (leadingComment ++ listed (argument read)) ++ symbol ")")

/-- The callee ends where the last token ended. -/
def callOn (start : Point) (callee : List Node) (between : NodeReader) : NodeReader := do
  let calleeSpan : Span := ⟨start, (← get).last⟩
  let inner ← between
  let arguments ← arguments read
  let span : Span := ⟨start, (← get).last⟩
  pure [.mk .call .member span
    ((Node.joining calleeSpan callee).withRole .callee :: inner ++ [arguments])]

/-- A decorator is a name or a call of one, or any expression in parentheses. -/
def decorator : NodeReader :=
  symbol "@" ++ (within "(" ")" (read .expression) <|> do
    modify Cursor.pastGap
    let start := (← get).point
    let _ ← word
    let _ ← many (symbol "." ++ skip word)
    optional (callOn read start [] (optional (typeArguments read))))

def decorators : NodeReader := many (decorator read)

/-- A template is one literal; an expression in it is a phrase of its own. -/
def template (inner : Phrase) : NodeReader :=
  literalNode (symbol "\x60" ++ skip templateText ++
    many (do
      close ['$', '\x7b']
      let node ← asNode .phrase .member (enclosed (read inner))
      mark "\x7d"
      templateText
      pure [node]) ++
    skip (close ['\x60']))

/-- The name of a member is kept as it is spelled. -/
def memberName : Reader Node :=
  asNode .name .name <|
    skip word <|> skip (lexeme privateNameLength) <|> skip quoted <|> skip number <|>
      within "[" "]" (read .expression)

end

/-- Words that qualify the member whose name follows. -/
def modifierWords : List String :=
  ["public", "private", "protected", "static", "override", "readonly", "async", "declare",
    "abstract", "accessor", "get", "set"]

def startsName (text : List Char) : Bool :=
  wordLength text != 0 || privateNameLength text != 0 || stringLength text != 0 ||
    numberLength text != 0 || text.head? == some '[' || text.head? == some '*'

/-- The words `in` and `instanceof` continue a line, unless letters follow them. -/
def continuesLine : List Char → Bool
  | '*' :: _ => true
  | 'i' :: 'n' :: rest =>
    if rest.head?.any Text.isAsciiLetter then
      "stanceof".toList.isPrefixOf rest && !(rest.drop 8).head?.any Text.isAsciiLetter
    else true
  | _ => false

/-- A line break after a modifier turns it into the name of a member. -/
def modifier : NodeReader := do
  let (span, spelling) ← spanned <|
    (do mark "*"; pure "*") <|> do
      let spelling ← oneOf modifierWords
      guarded (facing startsName)
      if !(← get).context.isEnclosed && (← onNewLine) then guarded (facing continuesLine)
      pure spelling
  pure [.mk (.token spelling) .member span []]

/-- A token that fits nowhere is passed over, but no closing brace. -/
def passOver : NodeReader :=
  skip word <|> skip number <|> skip quoted <|>
    skip (lexeme fun text => if text.head?.any (· != '\x7d') then 1 else 0)

section

variable (read : Phrase → NodeReader)

def statements : NodeReader := many (read .statement <|> passOver)

def block : NodeReader := symbol "\x7b" ++ inBlock (statements read) ++ symbol "\x7d"

def typed : NodeReader := symbol ":" ++ read .type

/-- An equals sign alone gives an initial value. -/
def initialized : NodeReader :=
  condition (notAhead (mark "=>")) ++ symbol "=" ++ read .assignment

/-- A type parameter may be qualified, bounded and given a default. -/
def typeParameter : NodeReader :=
  many (oneWordOf ["const", "in", "out"] ++ condition (guarded (ahead word))) ++ skip word ++
    optional (wordOf "extends" ++ read .type) ++ optional (symbol "=" ++ read .type)

def typeParameters : NodeReader :=
  symbol "<" ++ separated (typeParameter read) ++ optional (symbol ",") ++ symbol ">"

def startsPattern (text : List Char) : Bool :=
  wordLength text != 0 || text.head? == some '[' || text.head? == some '\x7b'

def parameter : NodeReader :=
  decorators read ++
    many (oneWordOf modifierWords ++ condition (guarded (facing startsPattern))) ++
    optional (symbol "...") ++ read .pattern ++ optional (symbol "?") ++ optional (typed read) ++
    optional (initialized read)

def parameters : NodeReader := within "(" ")" (listed (parameter read))

/-- A signature is what stands between the name of a function and its body. -/
def signature : NodeReader :=
  optional (typeParameters read) ++ parameters read ++ optional (typed read)

/-- A pattern is a name, or a list of patterns in brackets or braces. -/
def pattern : NodeReader :=
  skip identifier <|>
    within "[" "]" (listed (
      optional (symbol "...") ++ read .pattern ++ optional (initialized read))) <|>
    within "\x7b" "\x7d" (listed (
      symbol "..." ++ read .pattern <|>
      (do pure (← memberName read).children) ++ symbol ":" ++ read .pattern ++
        optional (initialized read) <|>
      skip identifier ++ optional (initialized read)))

end

end Reader

end InterfaceAudit.Script
