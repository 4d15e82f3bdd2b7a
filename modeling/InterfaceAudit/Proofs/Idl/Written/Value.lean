import InterfaceAudit.Proofs.Idl.Written.Reading
import InterfaceAudit.Proofs.Idl.Written.Spelling

/-!
Values in a written text: constants, defaults and the values of extended attributes.
The number token takes the beginning of an identifier that is spelled like a number, so such an
identifier is not read as a value.
-/

namespace InterfaceAudit.Idl

open Grammar
open Grammar.Expression (skipThen thenSkip firstOf separated)

/-! ### Constants -/

inductive ConstantTree where
  | yes
  | no
  | number (content : Number)
  deriving DecidableEq, Repr

def ConstantTree.lexeme : ConstantTree → Lexeme
  | .yes => .keyword .yes
  | .no => .keyword .no
  | .number content => .number content

section Constants

variable (others : List Lexeme)

/-- A number is no truth value, because it starts with no letter of one. -/
theorem scan_keyword_number {keyword : Keyword} (isTruth : keyword = .yes ∨ keyword = .no)
    (number : Number) :
    grammar.scan (.keyword keyword) (written (.number number :: others)) = none := by
  obtain ⟨first, rest, same, -⟩ := number.first_isTokenPart
  have apart : first ≠ 't' ∧ first ≠ 'f' := by
    constructor
    · rintro rfl
      have scanned := number.scanned
      rw [same, scanNumber_none (by decide)] at scanned
      contradiction
    · rintro rfl
      have scanned := number.scanned
      rw [same, scanNumber_none (by decide)] at scanned
      contradiction
  change scanKeyword keyword.spelling (number.chars ++ gap others) = none
  rw [← Option.not_isSome_iff_eq_none, scanKeyword_isSome_iff]
  rintro ⟨last, append, -⟩
  rw [same] at append
  rcases isTruth with rfl | rfl
  · exact apart.1 (List.cons.inj append).1
  · exact apart.2 (List.cons.inj append).1

/-- A written constant is taken as a whole. -/
@[simp] theorem read_constantValue (constant : ConstantTree) :
    grammar.read constantValue (written (constant.lexeme :: others)) =
      some (constant.lexeme.chars, gap others) := by
  cases constant with
  | yes => simp [constantValue, firstOf, read_choice, ConstantTree.lexeme, Lexeme.chars]
  | no =>
    simp [constantValue, firstOf, read_choice, ConstantTree.lexeme, Lexeme.chars]
  | number number =>
    simp [constantValue, firstOf, read_choice, ConstantTree.lexeme, Lexeme.chars,
      scan_keyword_number]

@[simp] theorem read_constantValue_mark (mark : Mark) :
    grammar.read constantValue (written (.mark mark :: others)) = none := by
  simp [constantValue, firstOf, read_choice]

@[simp] theorem read_constantValue_pair (opening closing : Mark) :
    grammar.read constantValue (written (.pair opening closing :: others)) = none := by
  simp [constantValue, firstOf, read_choice]

@[simp] theorem read_constantValue_quoted (content : Quotable) :
    grammar.read constantValue (written (.quoted content :: others)) = none := by
  simp [constantValue, firstOf, read_choice]

/-- A word that is no truth value is a constant only where it starts like a number. -/
theorem read_constantValue_word {word : Word} (notYes : word.chars ≠ Keyword.yes.spelling)
    (notNo : word.chars ≠ Keyword.no.spelling) :
    grammar.read constantValue (written (.word word :: others)) =
      grammar.scan .number (written (.word word :: others)) := by
  simp [constantValue, firstOf, read_choice, notYes, notNo]

end Constants

/-! ### Defaults -/

/-- An empty sequence or dictionary may be written with or without a space inside. -/
inductive DefaultTree where
  | constant (content : ConstantTree)
  | quoted (content : Quotable)
  | sequence (isTight : Bool)
  | dictionary (isTight : Bool)
  | null
  deriving DecidableEq, Repr

def pairLexemes (opening closing : Mark) (isTight : Bool) : List Lexeme :=
  if isTight then [.pair opening closing] else [.mark opening, .mark closing]

def DefaultTree.lexemes : DefaultTree → List Lexeme
  | .constant content => [content.lexeme]
  | .quoted content => [.quoted content]
  | .sequence isTight => pairLexemes .openBracket .closeBracket isTight
  | .dictionary isTight => pairLexemes .openBrace .closeBrace isTight
  | .null => [.keyword .null]

/-- A quoted default is declared without its quotes. -/
def DefaultTree.text : DefaultTree → String
  | .quoted content => String.ofList (inner (spelled [.quoted content]))
  | default => String.ofList (spelled default.lexemes)

/-- Squeezing a quoted text leaves its opening quote in front. -/
theorem head_spelled_quoted (content : Quotable) :
    (spelled [.quoted content]).head? = some '\x22' := by
  obtain ⟨chars, others, same⟩ :=
    Text.pieces_of_plain (show Text.isPlain '\x22' = true by decide) (content.chars ++ ['\x22'])
  have pieces : [Lexeme.quoted content].flatMap Lexeme.pieces =
      .word ('\x22' :: chars) :: others := by
    rw [List.flatMap_singleton, Lexeme.pieces, List.cons_append, same]
  rw [spelled, pieces]
  cases others with
  | nil => rfl
  | cons piece others => cases piece <;> rfl

/-- A constant has no quote in front, so nothing is cut off its default. -/
theorem head_spelled_constant (constant : ConstantTree) :
    (spelled [constant.lexeme]).head? ≠ some '\x22' := by
  cases constant with
  | yes => decide
  | no => decide
  | number content =>
    obtain ⟨first, rest, same, part⟩ := content.first_isTokenPart
    simp only [spelled, ConstantTree.lexeme, List.flatMap_singleton, Lexeme.pieces, same, Text.glue,
      List.append_nil, List.head?_cons, ne_eq, Option.some.injEq]
    rintro rfl
    contradiction

/-- The text of a written default is that of its tree. -/
theorem defaultText_written (default : DefaultTree) :
    defaultText (written default.lexemes) = default.text := by
  rw [defaultText, squeeze_written]
  cases default with
  | constant content =>
    have notQuote := head_spelled_constant content
    simp [DefaultTree.lexemes, DefaultTree.text, notQuote]
  | quoted content =>
    simp [DefaultTree.lexemes, DefaultTree.text, head_spelled_quoted content]
  | sequence isTight => cases isTight <;> rfl
  | dictionary isTight => cases isTight <;> rfl
  | null => rfl

section Defaults

variable (others : List Lexeme)

/-- The two marks of an empty pair are read with and without a space between them. -/
theorem read_emptyPair (opening closing : Mark) (isTight : Bool) :
    grammar.read (emptyPair opening.char closing.char)
        (written (pairLexemes opening closing isTight ++ others)) =
      some ([closing.char], gap others) := by
  cases isTight <;> simp [emptyPair, pairLexemes, scan_symbol_cons]

/-- An empty pair is neither a constant nor a quoted text. -/
theorem read_pair_none {opening closing : Mark} (isTight : Bool) :
    grammar.read constantValue (written (pairLexemes opening closing isTight ++ others)) = none ∧
      grammar.scan .quoted (written (pairLexemes opening closing isTight ++ others)) = none := by
  cases isTight <;> simp [pairLexemes]

/-- Every written default value is taken as a whole. -/
theorem read_defaultValue (default : DefaultTree) :
    ∃ taken, grammar.read defaultValue (written (default.lexemes ++ others)) =
      some (taken, gap others) := by
  cases default with
  | constant content =>
    exact ⟨content.lexeme.chars, by simp [defaultValue, firstOf, read_choice, DefaultTree.lexemes]⟩
  | quoted content =>
    exact ⟨Lexeme.chars (.quoted content),
      by simp [defaultValue, firstOf, read_choice, DefaultTree.lexemes]⟩
  | sequence isTight =>
    have found : grammar.read (emptyPair '[' ']') _ = _ :=
      read_emptyPair others .openBracket .closeBracket isTight
    refine ⟨[']'], ?_⟩
    simp [defaultValue, firstOf, read_choice, DefaultTree.lexemes, read_pair_none, found,
      Mark.char]
  | dictionary isTight =>
    have found : grammar.read (emptyPair '\x7b' '\x7d') _ = _ :=
      read_emptyPair others .openBrace .closeBrace isTight
    have noSequence : grammar.read (emptyPair '[' ']')
        (written (pairLexemes .openBrace .closeBrace isTight ++ others)) = none := by
      cases isTight <;> simp [emptyPair, pairLexemes, Mark.char]
    refine ⟨['\x7d'], ?_⟩
    simp [defaultValue, firstOf, read_choice, DefaultTree.lexemes, read_pair_none, noSequence,
      found, Mark.char]
  | null =>
    have noNumber : grammar.scan .number (written (.keyword .null :: others)) = none :=
      scan_number_word others (by decide)
    have noPair (opening closing : Char) (notPart : isTokenPart opening = false) :
        grammar.read (emptyPair opening closing) (written (.keyword .null :: others)) = none := by
      simp [emptyPair, notPart]
    refine ⟨Keyword.null.spelling, ?_⟩
    simp (disch := decide) [defaultValue, firstOf, read_choice, DefaultTree.lexemes,
      read_constantValue_word, noNumber, noPair]

theorem DefaultTree.lexemes_ne_nil (default : DefaultTree) : default.lexemes ≠ [] := by
  cases default with
  | sequence isTight | dictionary isTight => cases isTight <;> simp [lexemes, pairLexemes]
  | constant | quoted | null => simp [lexemes]

/-- An equals sign and a default value are read as the text of the default. -/
@[simp] theorem read_default (default : DefaultTree) :
    grammar.read Idl.default (written (.mark .equals :: (default.lexemes ++ others))) =
      some (default.text, gap others) := by
  obtain ⟨taken, found⟩ := read_defaultValue others default
  simp [Idl.default, Mark.char, found, default.lexemes_ne_nil, defaultText_written]

end Defaults

/-! ### Values of extended attributes -/

inductive ExtAttrItem where
  | quoted (content : Quotable)
  | constant (content : ConstantTree)
  | name (content : Identifier)
  deriving DecidableEq, Repr

def ExtAttrItem.lexeme : ExtAttrItem → Lexeme
  | .quoted content => .quoted content
  | .constant content => content.lexeme
  | .name content => .name content

/-- An identifier is sound as a value when it does not begin like a number. -/
def ExtAttrItem.sound : ExtAttrItem → Bool
  | .name content => !content.isNumeral
  | _ => true

/-- A list has one item or more. -/
inductive ExtAttrValue where
  | item (content : ExtAttrItem)
  | list (first : ExtAttrItem) (others : List ExtAttrItem)
  deriving DecidableEq, Repr

def ExtAttrValue.lexemes : ExtAttrValue → List Lexeme
  | .item content => [content.lexeme]
  | .list first others =>
    .mark .openParenthesis :: first.lexeme ::
      (behindCommas (fun item => [item.lexeme]) others ++ [.mark .closeParenthesis])

def ExtAttrValue.sound : ExtAttrValue → Bool
  | .item content => content.sound
  | .list first others => (first :: others).all ExtAttrItem.sound

section Values

variable (others : List Lexeme)

/-- A sound item of an attribute is taken as a whole. -/
theorem read_extAttrItem {item : ExtAttrItem} (isSound : item.sound = true) :
    grammar.read extAttrItem (written (item.lexeme :: others)) =
      some (item.lexeme.chars, gap others) := by
  cases item with
  | quoted content => simp [extAttrItem, firstOf, read_choice, ExtAttrItem.lexeme]
  | constant content =>
    have noQuoted : grammar.scan .quoted (written (content.lexeme :: others)) = none := by
      cases content <;> simp [ConstantTree.lexeme]
    simp [extAttrItem, firstOf, read_choice, ExtAttrItem.lexeme, noQuoted]
  | name content =>
    have notNumeral : content.isNumeral = false := by simpa [ExtAttrItem.sound] using isSound
    have noConstant : grammar.read constantValue (written (.name content :: others)) = none := by
      rw [read_constantValue_word others (content.ne_spelling .yes) (content.ne_spelling .no),
        scan_number_word others notNumeral]
    simp [extAttrItem, firstOf, read_choice, ExtAttrItem.lexeme, noConstant, Lexeme.chars]

/-- A number is split off from an identifier that begins like one. -/
theorem read_extAttrItem_unsound {item : ExtAttrItem} (unsound : item.sound = false) :
    ∃ taken first rest, grammar.read extAttrItem (written (item.lexeme :: others)) =
      some (taken, first :: rest) ∧ isWordChar first = true := by
  cases item with
  | quoted | constant => contradiction
  | name content =>
    have numeral : content.isNumeral = true := by simpa [ExtAttrItem.sound] using unsound
    obtain ⟨taken, first, rest, found, wordChar⟩ := scan_number_numeral others numeral
    refine ⟨taken, first, rest, ?_, wordChar⟩
    rw [← read_constantValue_word others (content.ne_spelling .yes) (content.ne_spelling .no)]
      at found
    simp [extAttrItem, firstOf, read_choice, ExtAttrItem.lexeme, found]

/-- A word character is no mark. -/
theorem ne_mark_of_isWordChar {first : Char} (wordChar : isWordChar first = true) (mark : Mark) :
    first ≠ mark.char := by
  intro same
  have notPart := mark.char_notPart.1
  rw [← same, isTokenPart_of_isWordChar first wordChar] at notPart
  contradiction

/-- A list of attribute items is read as far as its items are sound. -/
theorem readsItem_extAttrItem (item : ExtAttrItem) :
    ReadsItem extAttrItem (fun item => [item.lexeme]) ExtAttrItem.sound
      (fun item => item.lexeme.chars) .closeParenthesis item where
  read_of_sound isSound rest _ := by simp [read_extAttrItem rest isSound]
  stuck_of_unsound unsound rest _ := by
    obtain ⟨taken, first, last, found, wordChar⟩ := read_extAttrItem_unsound rest unsound
    intro value remaining read
    rw [List.singleton_append, read_spaced, found, Option.map_some, Option.some.injEq,
      Prod.mk.injEq] at read
    rw [← read.2, afterBlank_wordChar last wordChar]
    simpa using ⟨ne_mark_of_isWordChar wordChar .comma, ne_mark_of_isWordChar wordChar _⟩

/-- A list is read when all its items are sound. -/
theorem read_extAttrList (first : ExtAttrItem) (items : List ExtAttrItem) :
    grammar.read extAttrList (written ((ExtAttrValue.list first items).lexemes ++ others)) =
      if (ExtAttrValue.list first items).sound then
        some (written (ExtAttrValue.list first items).lexemes, gap others)
      else none := by
  have closed := @read_separated_closed _ _ extAttrItem (fun item => [item.lexeme])
    ExtAttrItem.sound (fun item => item.lexeme.chars) .closeParenthesis first items others
    (fun item _ => readsItem_extAttrItem item) (by decide)
  have nonempty : (ExtAttrValue.list first items).lexemes ≠ [] := List.cons_ne_nil _ _
  have inner : grammar.read (skipThen (spaced (symbol '(')) (thenSkip
      (spaced (separated comma extAttrItem)) (symbol Mark.closeParenthesis.char)))
      (written ((ExtAttrValue.list first items).lexemes ++ others)) =
        if (ExtAttrValue.list first items).sound then
          some ((first :: items).map fun item => item.lexeme.chars, gap others)
        else none := by
    rw [ExtAttrValue.sound, ← closed]
    simp [ExtAttrValue.lexemes, Mark.char]
  change grammar.read (.map Prod.fst (.source (skipThen (spaced (symbol '(')) (thenSkip
    (spaced (separated comma extAttrItem)) (symbol Mark.closeParenthesis.char))))) _ = _
  rw [read_map, read_source, inner]
  split
  · simp [consumed_gap nonempty]
  · rfl

/-- An attribute value is a list in parentheses, or else a single item. -/
theorem read_extAttrValue_eq (text : List Char) :
    grammar.read extAttrValue text =
      (grammar.read extAttrList text).or (grammar.read extAttrItem text) :=
  read_choice grammar text extAttrList extAttrItem

/-- A single item does not start a list. -/
theorem read_extAttrList_item (item : ExtAttrItem) :
    grammar.read extAttrList (written (item.lexeme :: others)) = none := by
  have noParenthesis : grammar.scan (.symbol '(') (written (item.lexeme :: others)) = none := by
    rcases item with content | (_ | _ | content) | content <;>
      simp (disch := decide) [ExtAttrItem.lexeme, ConstantTree.lexeme]
  simp [extAttrList, noParenthesis]

/-- A sound value is read up to its end. -/
theorem read_extAttrValue {value : ExtAttrValue} (isSound : value.sound = true) :
    grammar.read extAttrValue (written (value.lexemes ++ others)) =
      some (written value.lexemes, gap others) := by
  rw [read_extAttrValue_eq]
  cases value with
  | item content =>
    have found := read_extAttrItem others (show content.sound = true from isSound)
    simp [ExtAttrValue.lexemes, read_extAttrList_item, found]
  | list first items => rw [read_extAttrList, if_pos isSound, Option.some_or]

/-- Behind a value that is not sound stands a word character, if anything was read. -/
theorem read_extAttrValue_unsound {value : ExtAttrValue} (unsound : value.sound = false) :
    grammar.read extAttrValue (written (value.lexemes ++ others)) = none ∨
      ∃ taken first rest, grammar.read extAttrValue (written (value.lexemes ++ others)) =
        some (taken, first :: rest) ∧ isWordChar first = true := by
  rw [read_extAttrValue_eq]
  cases value with
  | item content =>
    right
    obtain ⟨taken, first, rest, found, wordChar⟩ :=
      read_extAttrItem_unsound others (show content.sound = false from unsound)
    refine ⟨taken, first, rest, ?_, wordChar⟩
    simp [ExtAttrValue.lexemes, read_extAttrList_item, found]
  | list first items =>
    left
    have notSound : ¬(ExtAttrValue.list first items).sound = true := by simp [unsound]
    rw [read_extAttrList, if_neg notSound]
    simp [ExtAttrValue.lexemes, extAttrItem, firstOf, read_choice]

end Values

end InterfaceAudit.Idl
