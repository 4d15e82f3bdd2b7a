import InterfaceAudit.Script.Phrase

/-!
Types in script sources.
Only the calls in a type are kept: imports and the calls in queries.
-/

namespace InterfaceAudit.Script.Reader

variable (read : Phrase → NodeReader)

/-- A name is qualified by the names before it. -/
def qualifiedName : NodeReader := skip word ++ many (symbol "." ++ skip word)

/-- An import in a type is a call whose callee is the word itself. -/
def importedType : NodeReader := do
  modify Cursor.pastGap
  let start := (← get).point
  keyword "import"
  callOn read start [] (pure [])

/-- A query asks for the type of a value that a path leads to. -/
def typeQuery : NodeReader := do
  keyword "typeof"
  modify Cursor.pastGap
  let start := (← get).point
  let head ← importedType read <|> skip word
  let path ← many (symbol "." ++ (skip word <|> skip (lexeme privateNameLength)) <|>
    sameLine ++ within "[" "]" (read .type))
  let nodes ← sameLine ++ callOn read start (head ++ path) (pure []) <|> pure (head ++ path)
  (pure nodes : NodeReader) ++ optional (typeArguments read)

/-- A template type holds types. -/
def templateType : NodeReader := skip (template read .type)

/-- A function type ends with its result; a constructor type starts with `new`. -/
def functionType : NodeReader :=
  optional (wordOf "abstract") ++ optional (wordOf "new") ++ optional (typeParameters read) ++
    parameters read ++ symbol "=>" ++ read .type

/-- An element of a tuple may be named, optional or a rest. -/
def tupleElement : NodeReader :=
  optional (symbol "...") ++ optional (skip word ++ optional (symbol "?") ++ symbol ":") ++
    read .type ++ optional (symbol "?")

/-- A key in brackets is an index, a mapping or a computed name. -/
def bracketedKey : NodeReader :=
  within "[" "]" (skip word ++ (symbol ":" ++ read .type <|>
    wordOf "in" ++ read .type ++ optional (wordOf "as" ++ read .type))) <|>
  within "[" "]" (read .expression)

def presenceMark : NodeReader :=
  symbol "-?" <|> symbol "+?" <|> symbol "?" <|> symbol "!"

/-- A member of an object type has a key, a signature, or both, and then a type. -/
def objectTypeMember : NodeReader :=
  symbol ";" <|> symbol "," <|>
    optional ((symbol "+" <|> symbol "-") ++ wordOf "readonly") ++ skip (many modifier) ++
      optional (bracketedKey read <|> (do pure (← memberName read).children)) ++
      optional presenceMark ++ optional (typeParameters read) ++ optional (parameters read) ++
      optional (typed read)

def objectType : NodeReader := within "\x7b" "\x7d" (many (objectTypeMember read))

def typeOperators : List String := ["keyof", "unique", "readonly", "infer", "asserts"]

def startsType (text : List Char) : Bool :=
  wordLength text != 0 || numberLength text != 0 || stringLength text != 0 ||
    "([\x7b-\x60".toList.any fun c => text.head? == some c

/-- A word after which another type follows on the same line qualifies it. -/
def typeOperator : NodeReader :=
  oneWordOf typeOperators ++ sameLine ++ condition (guarded (facing startsType)) ++
    condition (notAhead (oneOf ["is", "extends"] *> guarded (facing startsType)))

/-- A guard says what its parameter is. -/
def namedType : NodeReader :=
  qualifiedName ++ optional (typeArguments read) ++
    optional (sameLine ++ wordOf "is" ++ read .type)

def plainType : NodeReader :=
  functionType read <|> typeQuery read <|>
    importedType read ++ many (symbol "." ++ skip word) ++ optional (typeArguments read) <|>
    skip quoted <|> templateType read <|> optional (symbol "-") ++ skip number <|>
    within "(" ")" (read .type) <|> within "[" "]" (listed (tupleElement read)) <|>
    objectType read <|> namedType read

/-- Brackets after a type make an array or look up a property. -/
def operandType : NodeReader :=
  many typeOperator ++ plainType read ++
    many (sameLine ++ within "[" "]" (optional (read .type)))

/-- A bar or an ampersand alone joins types. -/
def typeJoint : NodeReader :=
  condition (notAhead (mark "||" <|> mark "&&")) ++ (symbol "|" <|> symbol "&")

def joinedType : NodeReader :=
  optional typeJoint ++ operandType read ++ many (typeJoint ++ operandType read)

/-- A bound turns a type into the condition of a choice between two. -/
def type : NodeReader :=
  joinedType read ++
    optional (wordOf "extends" ++ joinedType read ++
      many (wordOf "extends" ++ joinedType read) ++
      optional (symbol "?" ++ read .type ++ symbol ":" ++ read .type))

end InterfaceAudit.Script.Reader
