/-!
Parsing expressions with typed results.
A choice takes its first alternative that matches, and a repetition takes as many items as it can;
neither is revised later.
-/

namespace InterfaceAudit.Grammar

/-- A reading yields a value and the rest of the text. -/
abbrev Reading (Result : Type) := Option (Result × List Char)

/-- An expression is built from tokens and from references to the rules of a grammar. -/
inductive Expression (Token : Type) (Rule : Type → Type) : Type → Type 1 where
  | token (kind : Token) : Expression Token Rule (List Char)
  | rule {Result : Type} (name : Rule Result) : Expression Token Rule Result
  | seq {First Second : Type} (first : Expression Token Rule First)
      (second : Expression Token Rule Second) : Expression Token Rule (First × Second)
  | map {Inner Result : Type} (build : Inner → Result) (inner : Expression Token Rule Inner) :
      Expression Token Rule Result
  | choice {Result : Type} (first second : Expression Token Rule Result) :
      Expression Token Rule Result
  | optional {Inner : Type} (inner : Expression Token Rule Inner) :
      Expression Token Rule (Option Inner)
  | many {Item : Type} (item : Expression Token Rule Item) : Expression Token Rule (List Item)
  | source {Inner : Type} (inner : Expression Token Rule Inner) :
      Expression Token Rule (List Char × Inner)

/-- The text that was read is what stands in front of the rest. -/
def consumed (text rest : List Char) : List Char := text.take (text.length - rest.length)

/-- Items are read as long as one matches and shortens the text. -/
def readMany {Item : Type} (read : List Char → Reading Item) (text : List Char) :
    List Item × List Char :=
  match read text with
  | some (item, rest) =>
    if rest.length < text.length then
      let (items, rest) := readMany read rest
      (item :: items, rest)
    else ([], text)
  | none => ([], text)
termination_by text.length

/-- The two arguments read tokens and rules. -/
def Expression.run {Token : Type} {Rule : Type → Type}
    (scan : Token → List Char → Option (List Char × List Char))
    (enter : {Result : Type} → Rule Result → List Char → Reading Result) {Result : Type} :
    Expression Token Rule Result → List Char → Reading Result
  | .token kind, text => scan kind text
  | .rule name, text => enter name text
  | .seq first second, text =>
    match first.run scan enter text with
    | some (firstValue, afterFirst) =>
      match second.run scan enter afterFirst with
      | some (secondValue, rest) => some ((firstValue, secondValue), rest)
      | none => none
    | none => none
  | .map build inner, text =>
    match inner.run scan enter text with
    | some (value, rest) => some (build value, rest)
    | none => none
  | .choice first second, text =>
    match first.run scan enter text with
    | some reading => some reading
    | none => second.run scan enter text
  | .optional inner, text =>
    match inner.run scan enter text with
    | some (value, rest) => some (some value, rest)
    | none => some (none, text)
  | .many item, text => some (readMany (fun text => item.run scan enter text) text)
  | .source inner, text =>
    match inner.run scan enter text with
    | some (value, rest) => some ((consumed text rest, value), rest)
    | none => none

end Grammar

/-- A grammar says how its tokens are scanned and what its rules stand for. -/
structure Grammar (Token : Type) (Rule : Type → Type) where
  scan : Token → List Char → Option (List Char × List Char)
  body : {Result : Type} → Rule Result → Grammar.Expression Token Rule Result

namespace Grammar

variable {Token : Type} {Rule : Type → Type}

/-- A rule may refer to rules only where the text has become shorter. -/
def enter (grammar : Grammar Token Rule) {Result : Type} (rule : Rule Result) (text : List Char) :
    Reading Result :=
  (grammar.body rule).run grammar.scan
    (fun inner rest => if rest.length < text.length then grammar.enter inner rest else none) text
termination_by text.length

def read (grammar : Grammar Token Rule) {Result : Type}
    (expression : Expression Token Rule Result) (text : List Char) : Reading Result :=
  expression.run grammar.scan grammar.enter text

namespace Expression

variable {First Second Result : Type}

/-- Only the second value counts. -/
def skipThen (first : Expression Token Rule First) (second : Expression Token Rule Second) :
    Expression Token Rule Second :=
  .map Prod.snd (.seq first second)

/-- Only the first value counts. -/
def thenSkip (first : Expression Token Rule First) (second : Expression Token Rule Second) :
    Expression Token Rule First :=
  .map Prod.fst (.seq first second)

/-- The first alternative that matches wins. -/
def firstOf (first : Expression Token Rule Result) :
    List (Expression Token Rule Result) → Expression Token Rule Result
  | [] => first
  | next :: others => .choice first (firstOf next others)

/-- A mark tells whether the expression matches. -/
def present (inner : Expression Token Rule Result) : Expression Token Rule Bool :=
  .map Option.isSome (.optional inner)

/-- Items stand with separators between them. -/
def separated (separator : Expression Token Rule First) (item : Expression Token Rule Result) :
    Expression Token Rule (List Result) :=
  .map (fun (first, others) => first :: others) (.seq item (.many (skipThen separator item)))

end Expression

end InterfaceAudit.Grammar
