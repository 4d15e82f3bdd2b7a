import InterfaceAudit.Script.Types

/-!
Classes in script sources.
A member with a body is a method; every other member leaves only what it holds.
-/

namespace InterfaceAudit.Script.Reader

variable (read : Phrase → NodeReader)

def named (node : Reader Node) : NodeReader := do pure [← node]

/-- Modifiers and a name, with a mark that tells whether the member may be absent. -/
def memberHead : NodeReader :=
  many modifier ++ named (memberName read) ++ optional (symbol "?" <|> symbol "!")

/-- The span of a method starts at its first modifier. -/
def method : NodeReader :=
  named (asNode .method .member (memberHead read ++ signature read ++ block read))

/-- A signature without a body declares no method. -/
def methodSignature : NodeReader := skip (memberHead read) ++ signature read

/-- The value of a field belongs to the class body. -/
def property : NodeReader := do
  let _ ← many modifier
  let name ← memberName read
  (pure name.children : NodeReader) ++ optional (symbol "?" <|> symbol "!") ++
    optional (typed read) ++ optional (initialized read)

def indexSignature : NodeReader :=
  skip (many modifier) ++ bracketedKey read ++ optional presenceMark ++ optional (typed read)

/-- A static block is run when its class is made. -/
def staticBlock : NodeReader := wordOf "static" ++ block read

/-- Decorators stand in front of their member, and what is no method is a phrase of its own. -/
def classMember : NodeReader :=
  symbol ";" <|> symbol "," <|> method read <|>
    named (asNode .phrase .member (decorator read <|> staticBlock read <|> methodSignature read <|>
      property read <|> indexSignature read)) <|>
    passOver

def classBody : Reader Node :=
  asNode .classBody .body (symbol "\x7b" ++ inBlock (many (classMember read)) ++ symbol "\x7d")

/-- The name of a class is not one of the words that introduce its ancestors. -/
def className : Reader Node :=
  asNode .name .name (condition (notAhead (oneOf ["extends", "implements"])) ++ skip identifier)

def ancestors : NodeReader :=
  optional (wordOf "extends" ++ separated (read .operand ++ optional (typeArguments read))) ++
    optional (wordOf "implements" ++ separated (read .type))

def classRest : NodeReader :=
  optional (typeParameters read) ++ ancestors read ++ named (classBody read)

def classHead : NodeReader := decorators read ++ optional (wordOf "abstract") ++ wordOf "class"

/-- A class that is declared has a name. -/
def classDeclaration : NodeReader :=
  named (asNode .classDeclaration .member
    (classHead read ++ named className ++ classRest read))

def classExpression : NodeReader :=
  named (asNode .classExpression .member
    (classHead read ++ optional (named className) ++ classRest read))

end InterfaceAudit.Script.Reader
