import InterfaceAudit.Script.Expressions

/-!
Statements in script sources.
Words that introduce a declaration in some places are plain names in others, so a reader of
declarations that does not match gives way to the reader of expressions.
-/

namespace InterfaceAudit.Script.Reader

variable (read : Phrase → NodeReader)

def ending : NodeReader := optional (symbol ";")

def parenthesized : NodeReader := within "(" ")" (read .expression)

/-- A variable may be asserted to be set, typed and initialised. -/
def declarator : NodeReader :=
  read .pattern ++ optional (symbol "!") ++ optional (typed read) ++ optional (initialized read)

def variableWords : NodeReader :=
  oneWordOf ["var", "let", "const"] <|>
    optional (wordOf "await") ++ wordOf "using" ++ sameLine ++ condition (notAhead (keyword "of"))

def variableList : NodeReader := variableWords ++ separated (declarator read)

def functionDeclaration : NodeReader :=
  optional (wordOf "async" ++ sameLine) ++ wordOf "function" ++ optional (symbol "*") ++
    optional (skip word) ++ signature read ++ (block read <|> ending)

def enumMember : NodeReader :=
  (do pure (← memberName read).children) ++ optional (initialized read)

def enumDeclaration : NodeReader :=
  optional (wordOf "const") ++ wordOf "enum" ++ skip identifier ++
    within "\x7b" "\x7d" (listed (enumMember read))

def interfaceDeclaration : NodeReader :=
  wordOf "interface" ++ sameLine ++ skip identifier ++ optional (typeParameters read) ++
    optional (wordOf "extends" ++ separated (read .type)) ++ objectType read

def typeDeclaration : NodeReader :=
  wordOf "type" ++ sameLine ++ skip identifier ++ optional (typeParameters read) ++ symbol "=" ++
    read .type ++ ending

/-- A module is named by a path or by a string, and may be declared without a body. -/
def moduleDeclaration : NodeReader :=
  (oneWordOf ["namespace", "module"] ++ sameLine ++ (qualifiedName <|> skip quoted) <|>
    wordOf "global" ++ condition (guarded (facing fun text => text.head? == some '\x7b'))) ++
    (block read <|> ending)

def declarationWords : List String :=
  ["var", "let", "const", "function", "class", "abstract", "enum", "interface", "type",
    "namespace", "module", "global", "async"]

def ambientDeclaration : NodeReader :=
  wordOf "declare" ++ sameLine ++ condition (guarded (ahead (oneOf declarationWords))) ++
    read .statement

/-- Names in braces are imported and exported under names or strings. -/
def nameList : NodeReader :=
  within "\x7b" "\x7d" (many (symbol "," <|> skip word <|> skip quoted))

def attributes : NodeReader :=
  optional (oneWordOf ["with", "assert"] ++ sameLine ++ object read)

def fromModule : NodeReader := wordOf "from" ++ skip quoted ++ attributes read

/-- An import may be bound to a module that is required; that is no call. -/
def importBinding : NodeReader :=
  optional (wordOf "type" ++ condition (guarded (ahead identifier))) ++ skip identifier ++
    symbol "=" ++ (wordOf "require" ++ within "(" ")" (skip quoted) <|> qualifiedName)

def importDeclaration : NodeReader :=
  wordOf "import" ++
    (skip quoted ++ attributes read <|> importBinding <|>
      many (symbol "," <|> symbol "*" <|> nameList <|>
        condition (notAhead (keyword "from" *> quoted)) ++ skip word) ++ fromModule read) ++
    ending

def exportDeclaration : NodeReader :=
  many (decorator read) ++ wordOf "export" ++
    (symbol "=" ++ read .expression ++ ending <|>
      wordOf "as" ++ wordOf "namespace" ++ skip word ++ ending <|>
      wordOf "default" ++
        (classDeclaration read <|> functionDeclaration read <|> interfaceDeclaration read <|>
          read .expression ++ ending) <|>
      optional (wordOf "type") ++
        (symbol "*" ++ optional (wordOf "as" ++ (skip word <|> skip quoted)) ++ fromModule read <|>
          nameList ++ optional (fromModule read)) ++ ending <|>
      read .statement)

def conditional : NodeReader :=
  wordOf "if" ++ parenthesized read ++ read .statement ++
    optional (wordOf "else" ++ read .statement)

/-- The head of a loop has three parts, or a variable and what it runs over. -/
def loopHead : NodeReader :=
  optional (variableList read <|> read .expression) ++
    (oneWordOf ["of", "in"] ++ read .expression <|>
      optional (symbol ";" ++ optional (read .expression) ++ symbol ";" ++
        optional (read .expression)))

def loop : NodeReader :=
  wordOf "for" ++ optional (wordOf "await") ++ within "(" ")" (loopHead read) ++
    read .statement <|>
  oneWordOf ["while", "with"] ++ parenthesized read ++ read .statement <|>
  wordOf "do" ++ read .statement ++ wordOf "while" ++ parenthesized read ++ ending

/-- A colon after a label ends it, whatever an arrow function could make of it. -/
def label : NodeReader :=
  wordOf "case" ++ inside ⟨false, true⟩ (read .expression) ++ symbol ":" <|>
    wordOf "default" ++ symbol ":"

def selection : NodeReader :=
  wordOf "switch" ++ parenthesized read ++ symbol "\x7b" ++
    inBlock (many (label read ++ many (read .statement))) ++ symbol "\x7d"

def trial : NodeReader :=
  wordOf "try" ++ block read ++
    optional (wordOf "catch" ++
      optional (within "(" ")" (read .pattern ++ optional (typed read))) ++ block read) ++
    optional (wordOf "finally" ++ block read)

/-- A jump may carry a value that starts on its line. -/
def jump : NodeReader :=
  oneWordOf ["return", "throw"] ++ optional (sameLine ++ read .expression) ++ ending <|>
    oneWordOf ["break", "continue"] ++ optional (sameLine ++ skip identifier) ++ ending <|>
    wordOf "debugger" ++ ending

def labelled : NodeReader := skip identifier ++ symbol ":" ++ read .statement

def declaration : NodeReader :=
  exportDeclaration read <|> importDeclaration read <|> classDeclaration read <|>
    functionDeclaration read <|> enumDeclaration read <|> variableList read ++ ending <|>
    interfaceDeclaration read <|> typeDeclaration read <|> moduleDeclaration read <|>
    ambientDeclaration read

def statement : NodeReader :=
  symbol ";" <|> block read <|> conditional read <|> loop read <|> selection read <|>
    trial read <|> jump read <|> declaration read <|> labelled read <|>
    read .expression ++ ending

end InterfaceAudit.Script.Reader
