import InterfaceAudit.Proofs.Idl.Statement
import InterfaceAudit.Proofs.Text.Blank

/-!
Written texts: lexemes with one space between them.
A token takes the lexeme that stands first or fails there, whatever follows it.
-/

namespace InterfaceAudit.Idl

open Grammar

/-- The marks of the grammar. -/
inductive Mark where
  | openBrace | closeBrace | openParenthesis | closeParenthesis | openBracket | closeBracket
  | less | greater | comma | semicolon | colon | equals | question
  deriving DecidableEq, Repr

def Mark.char : Mark → Char
  | .openBrace => '\x7b'
  | .closeBrace => '\x7d'
  | .openParenthesis => '('
  | .closeParenthesis => ')'
  | .openBracket => '['
  | .closeBracket => ']'
  | .less => '<'
  | .greater => '>'
  | .comma => ','
  | .semicolon => ';'
  | .colon => ':'
  | .equals => '='
  | .question => '?'

def isWordChar (c : Char) : Bool := Text.isAsciiLetter c || Text.isAsciiDigit c || c == '_'

/-- A word begins with a letter, which an underscore may precede. -/
def spellsWord : List Char → Bool
  | '_' :: letter :: rest => Text.isAsciiLetter letter && rest.all isWordChar
  | letter :: rest => Text.isAsciiLetter letter && rest.all isWordChar
  | [] => false

structure Word where
  chars : List Char
  spelled : spellsWord chars = true
  deriving DecidableEq, Repr

def Keyword.word (keyword : Keyword) : Word :=
  ⟨keyword.spelling, by cases keyword <;> decide⟩

@[simp] theorem Keyword.word_chars (keyword : Keyword) : keyword.word.chars = keyword.spelling :=
  rfl

@[simp] theorem Keyword.spelling_eq_iff {first second : Keyword} :
    first.spelling = second.spelling ↔ first = second :=
  ⟨Keyword.spelling_injective, congrArg Keyword.spelling⟩

/-- The words of the primitive types. -/
def primitiveWords : List (List Char) :=
  ["unsigned".toList, "long".toList, "short".toList, "unrestricted".toList, "float".toList,
    "double".toList]

/-- The words that the grammar reserves. -/
def reservedWords : List (List Char) :=
  Keyword.all.map Keyword.spelling ++ primitiveWords ++ ["Infinity".toList, "NaN".toList]

/-- An identifier is a word that is not reserved. -/
structure Identifier extends Word where
  free : reservedWords.contains chars = false
  deriving DecidableEq, Repr

/-- A number is a complete number token. -/
structure Number where
  chars : List Char
  scanned : scanNumber chars = some (chars, [])
  deriving DecidableEq, Repr

/-- Any text without a double quote may stand in quotes. -/
structure Quotable where
  chars : List Char
  unquoted : chars.contains '\x22' = false
  deriving DecidableEq, Repr

/-- Two marks of a pair stand together. -/
inductive Lexeme where
  | mark (kind : Mark)
  | pair (opening closing : Mark)
  | ellipsis
  | word (content : Word)
  | number (content : Number)
  | quoted (content : Quotable)
  deriving DecidableEq, Repr

def Lexeme.chars : Lexeme → List Char
  | .mark kind => [kind.char]
  | .pair opening closing => [opening.char, closing.char]
  | .ellipsis => "...".toList
  | .word content => content.chars
  | .number content => content.chars
  | .quoted content => '\x22' :: content.chars ++ ['\x22']

abbrev Lexeme.keyword (keyword : Keyword) : Lexeme := .word keyword.word

abbrev Lexeme.name (name : Identifier) : Lexeme := .word name.toWord

/-- Every lexeme with a space in front of it. -/
def gap : List Lexeme → List Char
  | [] => []
  | lexeme :: others => ' ' :: (lexeme.chars ++ gap others)

/-- The lexemes with single spaces between them. -/
def written : List Lexeme → List Char
  | [] => []
  | lexeme :: others => lexeme.chars ++ gap others

/-- Written lexemes in a row have one space between them. -/
theorem written_append {first : List Lexeme} (nonempty : first ≠ []) (second : List Lexeme) :
    written (first ++ second) = written first ++ gap second := by
  have gapAppend (first second : List Lexeme) :
      gap (first ++ second) = gap first ++ gap second := by
    induction first with
    | nil => rfl
    | cons lexeme others inductionHypothesis => simp [gap, inductionHypothesis]
  cases first with
  | nil => contradiction
  | cons lexeme others => simp [written, gapAppend]

@[simp] theorem written_singleton (lexeme : Lexeme) : written [lexeme] = lexeme.chars :=
  List.append_nil _

/-- A gap is a space in front of the written lexemes, if there are any. -/
theorem gap_eq (lexemes : List Lexeme) :
    gap lexemes = if lexemes = [] then [] else ' ' :: written lexemes := by
  cases lexemes <;> rfl

/-! ### First characters -/

/-- The characters of a word are parts of tokens. -/
theorem isTokenPart_of_isWordChar (c : Char) (held : isWordChar c = true) :
    isTokenPart c = true := by
  apply isTokenPart_of_isNameChar
  simp only [isWordChar, isNameChar] at held ⊢
  rw [held, Bool.true_or]

theorem isBlank_false_of_isTokenPart {c : Char} (part : isTokenPart c = true) :
    Text.isBlank c = false :=
  Text.isBlank_false_of_apart (by decide +kernel) part

/-- Parts of tokens are no white space of the grammar. -/
theorem isWhiteSpace_false_of_isTokenPart {c : Char} (part : isTokenPart c = true) :
    Text.isWhiteSpace c = false := by
  have notBlank := isBlank_false_of_isTokenPart part
  simp only [Text.isBlank, Bool.or_eq_false_iff] at notBlank
  exact notBlank.1

/-- A word starts with a letter or an underscore and goes on in word characters. -/
theorem Word.chars_eq (word : Word) :
    ∃ first rest, word.chars = first :: rest ∧ (Text.isAsciiLetter first = true ∨ first = '_') ∧
      rest.all isWordChar = true := by
  obtain ⟨chars, spelled⟩ := word
  unfold spellsWord at spelled
  split at spelled
  · next letter rest =>
    rw [Bool.and_eq_true] at spelled
    refine ⟨'_', letter :: rest, rfl, .inr rfl, ?_⟩
    simp only [List.all_cons, isWordChar, spelled.1, Bool.true_or, Bool.true_and]
    exact spelled.2
  · next letter rest _ =>
    rw [Bool.and_eq_true] at spelled
    exact ⟨letter, rest, rfl, .inl spelled.1, spelled.2⟩
  · contradiction

/-- All characters of a word are word characters. -/
theorem Word.all_isWordChar (word : Word) : word.chars.all isWordChar = true := by
  obtain ⟨first, rest, same, start, others⟩ := word.chars_eq
  rw [same, List.all_cons, others, Bool.and_true]
  rcases start with letter | rfl
  · simp only [isWordChar, letter, Bool.true_or]
  · rfl

theorem Number.all_isTokenPart (number : Number) : number.chars.all isTokenPart = true := by
  have split := (scanNumber_inert fun _ part => part).splits number.scanned
  exact List.all_eq_true.mpr split.inert

theorem Number.chars_ne_nil (number : Number) : number.chars ≠ [] :=
  ((scanNumber_inert fun _ part => part).splits number.scanned).taken_ne_nil

/-! ### Identifiers -/

section Identifiers

variable (name : Identifier)

/-- An identifier is no keyword. -/
@[simp] theorem Identifier.ne_spelling (keyword : Keyword) : name.chars ≠ keyword.spelling := by
  intro same
  have free := name.free
  have reserved : reservedWords.contains keyword.spelling = true := by
    cases keyword <;> decide
  rw [same, reserved] at free
  contradiction

/-- An identifier is no word of a primitive type. -/
@[simp] theorem Identifier.not_primitive : primitiveWords.contains name.chars = false := by
  rw [← Bool.not_eq_true, List.contains_iff_mem]
  intro member
  have free := name.free
  rw [← Bool.not_eq_true, List.contains_iff_mem] at free
  simp [reservedWords, member] at free

end Identifiers

end InterfaceAudit.Idl
