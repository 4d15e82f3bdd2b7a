import InterfaceAudit.Text.CharClass

/-!
Tokens of the interface definition language.
-/

namespace InterfaceAudit.Idl

inductive Keyword where
  | async | «attribute» | callback | const | constructor | deleter | dictionary | enumeration
  | getter | includes | inherit | interface | iterable | maplike | mixin | «namespace» | optional
  | or | «partial» | readonly | required | setlike | setter | static | stringifier | typedef
  | null | yes | no
  deriving DecidableEq, Repr

def Keyword.spelling : Keyword → List Char
  | .async => "async".toList
  | .attribute => "attribute".toList
  | .callback => "callback".toList
  | .const => "const".toList
  | .constructor => "constructor".toList
  | .deleter => "deleter".toList
  | .dictionary => "dictionary".toList
  | .enumeration => "enum".toList
  | .getter => "getter".toList
  | .includes => "includes".toList
  | .inherit => "inherit".toList
  | .interface => "interface".toList
  | .iterable => "iterable".toList
  | .maplike => "maplike".toList
  | .mixin => "mixin".toList
  | .namespace => "namespace".toList
  | .optional => "optional".toList
  | .or => "or".toList
  | .partial => "partial".toList
  | .readonly => "readonly".toList
  | .required => "required".toList
  | .setlike => "setlike".toList
  | .setter => "setter".toList
  | .static => "static".toList
  | .stringifier => "stringifier".toList
  | .typedef => "typedef".toList
  | .null => "null".toList
  | .yes => "true".toList
  | .no => "false".toList

inductive Token where
  | blank
  | symbol (mark : Char)
  | ellipsis
  | keyword (word : Keyword)
  | name
  | primitive
  | number
  | quoted
  deriving DecidableEq, Repr

/-- A scan splits the text into the token and the rest. -/
abbrev Scan := Option (List Char × List Char)

/-- The longest run of characters of a class. -/
def scanWhile (holds : Char → Bool) (text : List Char) : List Char × List Char :=
  (text.takeWhile holds, text.dropWhile holds)

/-- A fixed spelling at the start of the text. -/
def scanSpelling (spelling text : List Char) : Scan :=
  if spelling.isPrefixOf text then some (spelling, text.drop spelling.length) else none

/-- One more token is read where the last one ended. -/
def Scan.andThen (first : Scan) (second : List Char → Scan) : Scan :=
  match first with
  | some (taken, rest) =>
    match second rest with
    | some (more, rest) => some (taken ++ more, rest)
    | none => none
  | none => none

/-- A word ends where no token character follows. -/
def endsWord (rest : List Char) : Bool := !rest.head?.any Text.isTokenChar

def Scan.wholeWord (scan : Scan) : Scan :=
  match scan with
  | some (taken, rest) => if endsWord rest then some (taken, rest) else none
  | none => none

def scanKeyword (spelling text : List Char) : Scan := (scanSpelling spelling text).wholeWord

def isNameChar (c : Char) : Bool :=
  Text.isAsciiLetter c || Text.isAsciiDigit c || c == '_' || c == '-'

/-- A name starts with a letter, which an underscore or a hyphen may precede. -/
def scanName : List Char → Scan
  | [] => none
  | c :: rest =>
    if Text.isAsciiLetter c then
      some (c :: rest.takeWhile isNameChar, rest.dropWhile isNameChar)
    else if c == '_' || c == '-' then
      match rest with
      | letter :: after =>
        if Text.isAsciiLetter letter then
          some (c :: letter :: after.takeWhile isNameChar, after.dropWhile isNameChar)
        else none
      | [] => none
    else none

/-- At least one white space character. -/
def scanSpaces (text : List Char) : Scan :=
  match scanWhile Text.isWhiteSpace text with
  | ([], _) => none
  | (spaces, rest) => some (spaces, rest)

/-- A modifier in front of a word may be absent. -/
def scanModified (modifier : List Char) (words : List Char → Scan) (text : List Char) : Scan :=
  match ((scanSpelling modifier text).andThen scanSpaces).andThen words with
  | some scan => some scan
  | none => words text

def scanInteger (text : List Char) : Scan :=
  let long := "long".toList
  match (((scanSpelling long text).andThen scanSpaces).andThen (scanSpelling long)).wholeWord with
  | some scan => some scan
  | none =>
    match scanKeyword long text with
    | some scan => some scan
    | none => scanKeyword "short".toList text

def scanReal (text : List Char) : Scan :=
  match scanKeyword "float".toList text with
  | some scan => some scan
  | none => scanKeyword "double".toList text

/-- The words of a primitive type have only white space between them. -/
def scanPrimitive (text : List Char) : Scan :=
  match scanModified "unsigned".toList scanInteger text with
  | some scan => some scan
  | none => scanModified "unrestricted".toList scanReal text

def scanSome (holds : Char → Bool) (text : List Char) : Scan :=
  match scanWhile holds text with
  | ([], _) => none
  | (taken, rest) => some (taken, rest)

def scanDigits (text : List Char) : Scan := scanSome Text.isDigit text

/-- An exponent is a letter, an optional sign and digits. -/
def scanExponent : List Char → Scan
  | mark :: rest =>
    if mark == 'e' || mark == 'E' then
      match rest with
      | sign :: after =>
        if sign == '+' || sign == '-' then
          match scanDigits after with
          | some (digits, rest) => some (mark :: sign :: digits, rest)
          | none => none
        else
          match scanDigits rest with
          | some (digits, rest) => some (mark :: digits, rest)
          | none => none
      | [] => none
    else none
  | [] => none

/-- The exponent belongs to the number when there is one. -/
def scanOptionalExponent (taken rest : List Char) : List Char × List Char :=
  match scanExponent rest with
  | some (exponent, rest) => (taken ++ exponent, rest)
  | none => (taken, rest)

def scanHexadecimal : List Char → Scan
  | '0' :: mark :: rest =>
    if mark == 'x' || mark == 'X' then
      match scanSome Text.isHexDigit rest with
      | some (digits, rest) => some ('0' :: mark :: digits, rest)
      | none => none
    else none
  | _ => none

/-- A point stands after digits or in front of them. -/
def scanDecimal (text : List Char) : Scan :=
  match scanWhile Text.isDigit text with
  | (whole, '.' :: after) =>
    let (fraction, rest) := scanWhile Text.isDigit after
    if whole.isEmpty && fraction.isEmpty then none
    else some (scanOptionalExponent (whole ++ '.' :: fraction) rest)
  | _ => none

def scanWholeNumber (text : List Char) : Scan :=
  match scanDigits text with
  | some (digits, rest) => some (scanOptionalExponent digits rest)
  | none => none

/-- The first form that matches is taken, and what follows it is not looked at. -/
def scanMagnitude (text : List Char) : Scan :=
  [scanSpelling "Infinity".toList, scanSpelling "NaN".toList, scanHexadecimal, scanDecimal,
    scanWholeNumber].findSome? fun scan => scan text

def scanNumber (text : List Char) : Scan :=
  match text with
  | '-' :: rest =>
    match scanMagnitude rest with
    | some (magnitude, rest) => some ('-' :: magnitude, rest)
    | none => none
  | _ => scanMagnitude text

/-- A quoted text ends at the next double quote. -/
def scanQuoted : List Char → Scan
  | c :: rest =>
    if c == '\x22' then
      match scanWhile (· != '\x22') rest with
      | (content, close :: after) => some (c :: content ++ [close], after)
      | (_, []) => none
    else none
  | [] => none

/-- What is left after the end mark of a block comment, given the text inside it. -/
def afterBlockComment : List Char → Option (List Char)
  | [] => none
  | '*' :: '/' :: rest => some rest
  | _ :: rest => afterBlockComment rest

theorem afterBlockComment_length {text rest : List Char}
    (found : afterBlockComment text = some rest) :
    rest.length < text.length := by
  induction text using afterBlockComment.induct with
  | case1 => simp [afterBlockComment] at found
  | case2 inner =>
    simp only [afterBlockComment, Option.some.injEq] at found
    subst found
    simp only [List.length_cons]
    omega
  | case3 c inner notEnd inductionHypothesis =>
    rw [afterBlockComment] at found
    · have shorter := inductionHypothesis found
      simp only [List.length_cons]
      omega
    · exact notEnd

/-- What is left after one white space character or one comment. -/
def afterBlankItem (text : List Char) : Option (List Char) :=
  match text with
  | '/' :: '/' :: rest => some (rest.dropWhile (· != '\n'))
  | '/' :: '*' :: rest => afterBlockComment rest
  | c :: rest => if Text.isWhiteSpace c then some rest else none
  | [] => none

theorem length_dropWhile_le (holds : Char → Bool) (text : List Char) :
    (text.dropWhile holds).length ≤ text.length :=
  (List.dropWhile_sublist holds).length_le

theorem afterBlankItem_length {text rest : List Char} (found : afterBlankItem text = some rest) :
    rest.length < text.length := by
  unfold afterBlankItem at found
  split at found
  · next inner =>
    simp only [Option.some.injEq] at found
    subst found
    have := length_dropWhile_le (· != '\n') inner
    simp only [List.length_cons]
    omega
  · next inner =>
    have := afterBlockComment_length found
    simp only [List.length_cons]
    omega
  · next c inner _ _ =>
    split at found
    · simp only [Option.some.injEq] at found
      subst found
      simp
    · simp at found
  · simp at found

/-- A line comment ends before its line feed, a block comment at its first end mark; an open block
comment is no blank. -/
def afterBlank (text : List Char) : List Char :=
  match _ : afterBlankItem text with
  | some rest => afterBlank rest
  | none => text
termination_by text.length
decreasing_by exact afterBlankItem_length ‹_›

def scanBlank (text : List Char) : Scan :=
  let rest := afterBlank text
  some (text.take (text.length - rest.length), rest)

def Token.scan : Token → List Char → Scan
  | .blank, text => scanBlank text
  | .symbol mark, text => scanSpelling [mark] text
  | .ellipsis, text => scanSpelling "...".toList text
  | .keyword word, text => scanKeyword word.spelling text
  | .name, text => scanName text
  | .primitive, text => scanPrimitive text
  | .number, text => scanNumber text
  | .quoted, text => scanQuoted text

end InterfaceAudit.Idl
