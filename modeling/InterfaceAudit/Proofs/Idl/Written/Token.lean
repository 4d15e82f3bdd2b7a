import InterfaceAudit.Proofs.Idl.Written.Lexeme

/-!
Tokens at the start of a written text.
-/

namespace InterfaceAudit.Idl

open Grammar

/-- The characters of a written word are token characters. -/
theorem isTokenChar_of_isWordChar (c : Char) (held : isWordChar c = true) :
    Text.isTokenChar c = true := by
  have isNameChar : isNameChar c = true := by
    rw [Idl.isNameChar, show (_ || _ || _) = true from held, Bool.true_or]
  rw [isTokenChar_eq_of_isNameChar isNameChar, bne_iff_ne]
  rintro rfl
  contradiction

/-- No word starts with a digit of any script. -/
theorem isDigit_false_of_start {first : Char}
    (start : Text.isAsciiLetter first = true ∨ first = '_') : Text.isDigit first = false := by
  rcases start with letter | rfl
  · simp only [Text.isAsciiLetter, Bool.or_eq_true, Bool.and_eq_true, decide_eq_true_eq,
      Char.le_def, UInt32.le_iff_toNat_le] at letter
    have codes : 'a'.val.toNat = 97 ∧ 'z'.val.toNat = 122 ∧ 'A'.val.toNat = 65 ∧
        'Z'.val.toNat = 90 ∧ '0'.val.toNat = 48 ∧ '9'.val.toNat = 57 := by decide
    have ascii : first.toNat < 128 := by
      simp only [Char.toNat]
      omega
    simp only [Text.isDigit, ascii, if_true, Text.isAsciiDigit, Bool.and_eq_false_iff,
      decide_eq_false_iff_not, Char.le_def, UInt32.le_iff_toNat_le]
    omega
  · decide

theorem isAsciiLetter_of_isLower {c : Char} (small : Text.isLower c = true) :
    Text.isAsciiLetter c = true := by
  rw [Text.isAsciiLetter, show (_ && _) = true from small, Bool.true_or]

/-- No small letter begins a number. -/
theorem scanNumber_none {first : Char} (small : Text.isLower first = true) (rest : List Char) :
    scanNumber (first :: rest) = none := by
  have apart {c : Char} (other : Text.isLower c = false) : first ≠ c := by
    rintro rfl
    rw [small] at other
    contradiction
  have notDigit := isDigit_false_of_start (.inl (isAsciiLetter_of_isLower small))
  have sign : first ≠ '-' := apart (by decide)
  have zero : first ≠ '0' := apart (by decide)
  have point : first ≠ '.' := apart (by decide)
  have infinity : 'I' ≠ first := (apart (by decide)).symm
  have notNumber : 'N' ≠ first := (apart (by decide)).symm
  simp [scanNumber, scanMagnitude, scanSpelling, scanHexadecimal, scanDecimal, scanWhile,
    scanWholeNumber, scanDigits, scanSome, notDigit, sign, zero, point, infinity, notNumber]

/-! ### Blanks -/

/-- A mark is no part of a word or a number, no white space and no start of a comment. -/
theorem Mark.char_notPart (mark : Mark) :
    isTokenPart mark.char = false ∧ Text.isWhiteSpace mark.char = false ∧ mark.char ≠ '/' := by
  cases mark <;> decide

/-- No lexeme begins with a blank. -/
theorem Lexeme.chars_eq (lexeme : Lexeme) :
    ∃ first rest, lexeme.chars = first :: rest ∧ Text.isWhiteSpace first = false ∧
      first ≠ '/' := by
  have ofPart {first : Char} (part : isTokenPart first = true) :
      Text.isWhiteSpace first = false ∧ first ≠ '/' := by
    refine ⟨isWhiteSpace_false_of_isTokenPart part, ?_⟩
    rintro rfl
    contradiction
  cases lexeme with
  | mark kind => exact ⟨kind.char, [], rfl, kind.char_notPart.2⟩
  | pair opening closing => exact ⟨opening.char, [closing.char], rfl, opening.char_notPart.2⟩
  | ellipsis => exact ⟨'.', "..".toList, rfl, by decide⟩
  | word content =>
    obtain ⟨first, rest, same, -, -⟩ := content.chars_eq
    have all := content.all_isWordChar
    rw [same, List.all_cons, Bool.and_eq_true] at all
    exact ⟨first, rest, same, ofPart (isTokenPart_of_isWordChar first all.1)⟩
  | number content =>
    obtain ⟨first, rest, same⟩ := List.exists_cons_of_ne_nil content.chars_ne_nil
    have all := content.all_isTokenPart
    rw [same, List.all_cons, Bool.and_eq_true] at all
    exact ⟨first, rest, same, ofPart all.1⟩
  | quoted content => exact ⟨'\x22', content.chars ++ ['\x22'], rfl, by decide⟩

/-- No blank stands in front of a solid character that opens no comment. -/
theorem afterBlank_of_first {first : Char} (rest : List Char)
    (solid : Text.isWhiteSpace first = false) (notSlash : first ≠ '/') :
    afterBlank (first :: rest) = first :: rest := by
  apply afterBlank_of_none
  rw [afterBlankItem_of_ne_slash notSlash, solid]
  rfl

/-- A written text starts without a blank. -/
@[simp] theorem afterBlank_written (lexemes : List Lexeme) :
    afterBlank (written lexemes) = written lexemes := by
  cases lexemes with
  | nil => exact afterBlank_of_none rfl
  | cons lexeme others =>
    obtain ⟨first, rest, same, solid, notSlash⟩ := lexeme.chars_eq
    rw [written, same]
    exact afterBlank_of_first _ solid notSlash

/-- The blank in front of written lexemes is their gap. -/
@[simp] theorem afterBlank_gap (lexemes : List Lexeme) :
    afterBlank (gap lexemes) = written lexemes := by
  cases lexemes with
  | nil => exact afterBlank_of_none rfl
  | cons lexeme others =>
    have blank : afterBlankItem (gap (lexeme :: others)) = some (written (lexeme :: others)) := rfl
    rw [afterBlank_of_some blank, afterBlank_written]

@[simp] theorem afterBlank_mark (mark : Mark) (rest : List Char) :
    afterBlank (mark.char :: rest) = mark.char :: rest :=
  afterBlank_of_first rest mark.char_notPart.2.1 mark.char_notPart.2.2

/-- No blank stands in front of a word. -/
theorem afterBlank_wordChar {first : Char} (rest : List Char) (wordChar : isWordChar first = true) :
    afterBlank (first :: rest) = first :: rest := by
  have part := isTokenPart_of_isWordChar first wordChar
  refine afterBlank_of_first rest (isWhiteSpace_false_of_isTokenPart part) ?_
  rintro rfl
  contradiction

/-! ### Runs before a gap -/

section Runs

variable {holds : Char → Bool} {run : List Char}

/-- A run ends before a gap. -/
theorem takeWhile_gap (all : run.all holds = true) (stop : holds ' ' = false)
    (lexemes : List Lexeme) :
    (run ++ gap lexemes).takeWhile holds = run ∧
      (run ++ gap lexemes).dropWhile holds = gap lexemes := by
  induction run with
  | nil => cases lexemes <;> simp [gap, stop]
  | cons first run inductionHypothesis =>
    rw [List.all_cons, Bool.and_eq_true] at all
    simp [all.1, inductionHypothesis all.2]

/-- A gap ends the word in front of it, and so does the end of the text. -/
theorem endsWord_gap (lexemes : List Lexeme) : endsWord (gap lexemes) = true := by
  cases lexemes <;> rfl

/-- A spelling stands in front of a gap when the run in front of the gap begins with it. -/
theorem isPrefixOf_gap {spelling : List Char} (apart : spelling.contains ' ' = false)
    (lexemes : List Lexeme) :
    spelling.isPrefixOf (run ++ gap lexemes) = spelling.isPrefixOf run := by
  cases lexemes with
  | nil => simp [gap]
  | cons lexeme others =>
    refine @isPrefixOf_append_cons (fun c => c != ' ') spelling run ' ' _ ?_ rfl
    intro c member
    simp only [bne_iff_ne, ne_eq]
    rintro rfl
    simp [member] at apart

end Runs

/-! ### Tokens that fail -/

/-- Keywords, names, primitive types, numbers and the ellipsis begin with a token character. -/
def Token.beginsWithPart : Token → Bool
  | .ellipsis | .keyword _ | .name | .primitive | .number => true
  | .blank | .symbol _ | .quoted => false

/-- A token that begins with a part of a word or a number fails at any other character. -/
theorem scan_of_notPart {kind : Token} (begins : kind.beginsWithPart = true) {first : Char}
    (notPart : isTokenPart first = false) (solid : Text.isWhiteSpace first = false)
    (rest : List Char) : grammar.scan kind (first :: rest) = none := by
  have different {holds : Char → Bool} (fails : holds first = false) (c : Char)
      (held : holds c = true) : (c != first) = true := by
    rw [bne_iff_ne]
    rintro rfl
    rw [held] at fails
    contradiction
  have outside : (first != first) = false := by simp
  have covers := different notPart
  cases kind with
  | ellipsis => exact (scanPart_inert covers (by decide) (by decide)).none_of_outside outside rest
  | keyword word => exact (scanKeyword_inert covers word).none_of_outside outside rest
  | name => exact (scanName_inert covers).none_of_outside outside rest
  | primitive =>
    exact (scanPrimitive_inert covers (different solid)).none_of_outside outside rest
  | number => exact (scanNumber_inert covers).none_of_outside outside rest
  | blank | symbol mark | quoted => contradiction

section Failing

variable (others : List Lexeme)

/-- A token that begins with a part of a word or a number fails at a mark. -/
theorem scan_of_mark {kind : Token} (begins : kind.beginsWithPart = true) (mark : Mark) :
    grammar.scan kind (written (.mark mark :: others)) = none :=
  scan_of_notPart begins mark.char_notPart.1 mark.char_notPart.2.1 _

@[simp] theorem scan_keyword_mark (keyword : Keyword) (mark : Mark) :
    grammar.scan (.keyword keyword) (written (.mark mark :: others)) = none :=
  scan_of_mark others rfl mark

@[simp] theorem scan_name_mark (mark : Mark) :
    grammar.scan .name (written (.mark mark :: others)) = none :=
  scan_of_mark others rfl mark

@[simp] theorem scan_primitive_mark (mark : Mark) :
    grammar.scan .primitive (written (.mark mark :: others)) = none :=
  scan_of_mark others rfl mark

@[simp] theorem scan_number_mark (mark : Mark) :
    grammar.scan .number (written (.mark mark :: others)) = none :=
  scan_of_mark others rfl mark

@[simp] theorem scan_ellipsis_mark (mark : Mark) :
    grammar.scan .ellipsis (written (.mark mark :: others)) = none :=
  scan_of_mark others rfl mark

/-- Two marks without a gap between them are no keyword either. -/
@[simp] theorem scan_keyword_pair (keyword : Keyword) (opening closing : Mark) :
    grammar.scan (.keyword keyword) (written (.pair opening closing :: others)) = none :=
  scan_of_notPart rfl opening.char_notPart.1 opening.char_notPart.2.1 _

@[simp] theorem scan_number_pair (opening closing : Mark) :
    grammar.scan .number (written (.pair opening closing :: others)) = none :=
  scan_of_notPart rfl opening.char_notPart.1 opening.char_notPart.2.1 _

@[simp] theorem scan_keyword_quoted (keyword : Keyword) (content : Quotable) :
    grammar.scan (.keyword keyword) (written (.quoted content :: others)) = none :=
  scan_of_notPart rfl (by decide) (by decide) _

@[simp] theorem scan_number_quoted (content : Quotable) :
    grammar.scan .number (written (.quoted content :: others)) = none :=
  scan_of_notPart rfl (by decide) (by decide) _

/-- A symbol is no token character. -/
theorem scan_symbol_of_part {mark : Char} (notPart : isTokenPart mark = false) {first : Char}
    (part : isTokenPart first = true) (rest : List Char) :
    grammar.scan (.symbol mark) (first :: rest) = none := by
  have different : (mark == first) = false := by
    rw [beq_eq_false_iff_ne]
    rintro rfl
    rw [part] at notPart
    contradiction
  change scanSpelling [mark] (first :: rest) = none
  rw [scanSpelling, List.isPrefixOf_cons_cons, different]
  rfl

/-- A quoted text does not begin with a part of a word or a number. -/
theorem scan_quoted_of_part {first : Char} (part : isTokenPart first = true) (rest : List Char) :
    grammar.scan .quoted (first :: rest) = none := by
  have different : (first == '\x22') = false := by
    rw [beq_eq_false_iff_ne]
    rintro rfl
    contradiction
  change scanQuoted (first :: rest) = none
  rw [scanQuoted, different]
  rfl

/-- A word begins with a part of a token. -/
theorem Word.first_isTokenPart (word : Word) :
    ∃ first rest, word.chars = first :: rest ∧ isTokenPart first = true := by
  obtain ⟨first, rest, same, -, -⟩ := word.chars_eq
  have all := word.all_isWordChar
  rw [same, List.all_cons, Bool.and_eq_true] at all
  exact ⟨first, rest, same, isTokenPart_of_isWordChar first all.1⟩

/-- A number begins with a part of a token. -/
theorem Number.first_isTokenPart (number : Number) :
    ∃ first rest, number.chars = first :: rest ∧ isTokenPart first = true := by
  obtain ⟨first, rest, same⟩ := List.exists_cons_of_ne_nil number.chars_ne_nil
  have all := number.all_isTokenPart
  rw [same, List.all_cons, Bool.and_eq_true] at all
  exact ⟨first, rest, same, all.1⟩

section Symbols

variable {mark : Char} (notPart : isTokenPart mark = false)

include notPart

/-- A mark is not found where a word stands. -/
@[simp] theorem scan_symbol_word (word : Word) :
    grammar.scan (.symbol mark) (written (.word word :: others)) = none := by
  obtain ⟨first, rest, same, part⟩ := word.first_isTokenPart
  simp only [written, Lexeme.chars, same, List.cons_append]
  exact scan_symbol_of_part notPart part _

@[simp] theorem scan_symbol_number (number : Number) :
    grammar.scan (.symbol mark) (written (.number number :: others)) = none := by
  obtain ⟨first, rest, same, part⟩ := number.first_isTokenPart
  simp only [written, Lexeme.chars, same, List.cons_append]
  exact scan_symbol_of_part notPart part _

@[simp] theorem scan_symbol_ellipsis :
    grammar.scan (.symbol mark) (written (.ellipsis :: others)) = none :=
  scan_symbol_of_part notPart (by decide) _

end Symbols

/-- Whether a mark is found is decided by the first character. -/
theorem scan_symbol_cons (mark first : Char) (rest : List Char) :
    grammar.scan (.symbol mark) (first :: rest) =
      if first = mark then some ([mark], rest) else none := by
  change scanSpelling [mark] (first :: rest) = _
  by_cases same : first = mark
  · simp [scanSpelling, same]
  · simp [scanSpelling, same, Ne.symm same]

/-- A mark is not found where another character stands, or none. -/
theorem scan_symbol_of_head {mark : Char} {text : List Char} (missing : text.head? ≠ some mark) :
    grammar.scan (.symbol mark) text = none := by
  cases text with
  | nil => rfl
  | cons first rest =>
    rw [scan_symbol_cons, if_neg fun same => missing (congrArg some same)]

/-- A written mark is found as itself only. -/
@[simp] theorem scan_symbol_mark (mark : Char) (kind : Mark) :
    grammar.scan (.symbol mark) (written (.mark kind :: others)) =
      if kind.char = mark then some ([mark], gap others) else none :=
  scan_symbol_cons mark kind.char (gap others)

/-- Of two marks without a gap the first one is found, and the second one stands next. -/
@[simp] theorem scan_symbol_pair (mark : Char) (opening closing : Mark) :
    grammar.scan (.symbol mark) (written (.pair opening closing :: others)) =
      if opening.char = mark then some ([mark], closing.char :: gap others) else none :=
  scan_symbol_cons mark opening.char (closing.char :: gap others)

@[simp] theorem scan_symbol_quoted {mark : Char} (notQuote : '\x22' ≠ mark) (content : Quotable) :
    grammar.scan (.symbol mark) (written (.quoted content :: others)) = none := by
  change grammar.scan (.symbol mark) ('\x22' :: _) = none
  rw [scan_symbol_cons, if_neg notQuote]

@[simp] theorem scan_quoted_mark (mark : Mark) :
    grammar.scan .quoted (written (.mark mark :: others)) = none := by
  cases mark <;> rfl

@[simp] theorem scan_quoted_pair (opening closing : Mark) :
    grammar.scan .quoted (written (.pair opening closing :: others)) = none := by
  cases opening <;> rfl

@[simp] theorem scan_quoted_word (word : Word) :
    grammar.scan .quoted (written (.word word :: others)) = none := by
  obtain ⟨first, rest, same, part⟩ := word.first_isTokenPart
  simp only [written, Lexeme.chars, same, List.cons_append]
  exact scan_quoted_of_part part _

@[simp] theorem scan_quoted_number (number : Number) :
    grammar.scan .quoted (written (.number number :: others)) = none := by
  obtain ⟨first, rest, same, part⟩ := number.first_isTokenPart
  simp only [written, Lexeme.chars, same, List.cons_append]
  exact scan_quoted_of_part part _

/-- An ellipsis is not found where a word stands. -/
@[simp] theorem scan_ellipsis_word (word : Word) :
    grammar.scan .ellipsis (written (.word word :: others)) = none := by
  obtain ⟨first, rest, same, start, -⟩ := word.chars_eq
  have different : '.' ≠ first := by
    rintro rfl
    rcases start with letter | underscore <;> contradiction
  change scanSpelling "...".toList (word.chars ++ gap others) = none
  simp [scanSpelling, same, different]

end Failing

/-! ### Tokens that are taken -/

section Taken

variable (others : List Lexeme)

@[simp] theorem scan_ellipsis :
    grammar.scan .ellipsis (written (.ellipsis :: others)) =
      some ("...".toList, gap others) := rfl

/-- A quoted text without quotes inside is taken up to its closing quote. -/
theorem scanQuoted_quoted (content : Quotable) (after : List Char) :
    scanQuoted (Lexeme.chars (.quoted content) ++ after) =
      some (Lexeme.chars (.quoted content), after) := by
  obtain ⟨chars, unquoted⟩ := content
  have all : ∀ c ∈ chars, (c != '\x22') = true := by
    intro c member
    rw [bne_iff_ne]
    rintro rfl
    simp [member] at unquoted
  have taken : (chars ++ '\x22' :: after).takeWhile (· != '\x22') = chars := by
    rw [List.takeWhile_append_of_pos all]
    simp
  have dropped : (chars ++ '\x22' :: after).dropWhile (· != '\x22') = '\x22' :: after := by
    rw [List.dropWhile_append_of_pos all]
    simp
  change scanQuoted ('\x22' :: chars ++ ['\x22'] ++ after) = _
  simp [scanQuoted, scanWhile, taken, dropped, Lexeme.chars]

/-- A written quoted text is taken as a whole. -/
@[simp] theorem scan_quoted (content : Quotable) :
    grammar.scan .quoted (written (.quoted content :: others)) =
      some (Lexeme.chars (.quoted content), gap others) :=
  scanQuoted_quoted content (gap others)

/-- A written number is taken as a whole, because the gap behind it is no part of it. -/
@[simp] theorem scan_number (number : Number) :
    grammar.scan .number (written (.number number :: others)) =
      some (number.chars, gap others) := by
  have scanned := number.scanned
  change scanNumber (number.chars ++ gap others) = _
  cases others with
  | nil => simpa [gap] using scanned
  | cons lexeme rest =>
    have steady := (@scanNumber_inert isTokenPart fun _ part => part).steady number.chars
      (written (lexeme :: rest)) (show isTokenPart ' ' = false by decide)
    rw [scanned] at steady
    exact steady

/-! ### Tokens on words -/

/-- The first character of a word may be followed by any name characters. -/
@[simp] theorem scan_name (word : Word) :
    grammar.scan .name (written (.word word :: others)) = some (word.chars, gap others) := by
  have nameChars {run : List Char} (all : run.all isWordChar = true) :
      run.all isNameChar = true := by
    refine List.all_eq_true.mpr fun c member => ?_
    have held := List.all_eq_true.mp all c member
    simp only [isWordChar] at held
    simp only [isNameChar, held, Bool.true_or]
  obtain ⟨chars, spelled⟩ := word
  change scanName (chars ++ gap others) = some (chars, gap others)
  unfold spellsWord at spelled
  split at spelled
  · next letter rest =>
    rw [Bool.and_eq_true] at spelled
    obtain ⟨taken, dropped⟩ := takeWhile_gap (nameChars spelled.2) (by decide) others
    have notLetter : Text.isAsciiLetter '_' = false := by decide
    simp [scanName, notLetter, spelled.1, taken, dropped]
  · next letter rest _ =>
    rw [Bool.and_eq_true] at spelled
    obtain ⟨taken, dropped⟩ := takeWhile_gap (nameChars spelled.2) (by decide) others
    simp [scanName, spelled.1, taken, dropped]
  · contradiction

/-- A keyword is found on a word that is spelled like it, and on no other one. -/
theorem scanKeyword_word {spelling : List Char} (tokenChars : spelling.all Text.isTokenChar = true)
    (word : Word) :
    scanKeyword spelling (word.chars ++ gap others) =
      if word.chars = spelling then some (spelling, gap others) else none := by
  split
  · next same =>
    rw [same]
    simp [scanKeyword, scanSpelling, Scan.wholeWord, endsWord_gap]
  · next different =>
    rw [← Option.not_isSome_iff_eq_none, scanKeyword_isSome_iff]
    rintro ⟨rest, same, ends⟩
    apply different
    have wordChars : word.chars.all Text.isTokenChar = true := by
      refine List.all_eq_true.mpr fun c member => ?_
      exact isTokenChar_of_isWordChar c (List.all_eq_true.mp word.all_isWordChar c member)
    have wordRun := (takeWhile_gap wordChars (by decide) others).1
    have spellingRun : (spelling ++ rest).takeWhile Text.isTokenChar = spelling := by
      rw [List.takeWhile_append_of_pos (List.all_eq_true.mp tokenChars)]
      cases rest with
      | nil => simp
      | cons c rest => simp_all [endsWord]
    rw [← wordRun, same, spellingRun]

/-- A word is a keyword when it is spelled like one. -/
@[simp] theorem scan_keyword (keyword : Keyword) (word : Word) :
    grammar.scan (.keyword keyword) (written (.word word :: others)) =
      if word.chars = keyword.spelling then some (keyword.spelling, gap others) else none :=
  scanKeyword_word others keyword.spelling_isTokenChar word

/-- The number token has no end of its own, so it takes the beginning of such a word. -/
def Word.isNumeral (word : Word) : Bool :=
  "Infinity".toList.isPrefixOf word.chars || "NaN".toList.isPrefixOf word.chars

/-- The two numbers that are words are found at the start of any word, even inside a longer one. -/
theorem scanMagnitude_word (word : Word) :
    scanMagnitude (word.chars ++ gap others) =
      if "Infinity".toList.isPrefixOf word.chars then
        some ("Infinity".toList, (word.chars ++ gap others).drop 8)
      else if "NaN".toList.isPrefixOf word.chars then
        some ("NaN".toList, (word.chars ++ gap others).drop 3)
      else none := by
  obtain ⟨first, rest, same, start, -⟩ := word.chars_eq
  have notDigit : Text.isDigit first = false := isDigit_false_of_start start
  have notZero : first ≠ '0' := by
    rintro rfl
    contradiction
  have notPoint : first ≠ '.' := by
    rintro rfl
    rcases start with letter | underscore <;> contradiction
  have hexadecimal : scanHexadecimal (word.chars ++ gap others) = none := by
    simp [same, scanHexadecimal, notZero]
  have decimal : scanDecimal (word.chars ++ gap others) = none := by
    simp [same, scanDecimal, scanWhile, notDigit, notPoint]
  have wholeNumber : scanWholeNumber (word.chars ++ gap others) = none := by
    simp [same, scanWholeNumber, scanDigits, scanSome, scanWhile, notDigit]
  have spelled (spelling : List Char) (apart : spelling.contains ' ' = false) :
      scanSpelling spelling (word.chars ++ gap others) =
        if spelling.isPrefixOf word.chars then
          some (spelling, (word.chars ++ gap others).drop spelling.length)
        else none := by
    rw [scanSpelling, isPrefixOf_gap apart]
  rw [scanMagnitude]
  simp only [List.findSome?_cons, List.findSome?_nil, spelled "Infinity".toList (by decide),
    spelled "NaN".toList (by decide), hexadecimal, decimal, wholeNumber]
  by_cases infinity : "Infinity".toList.isPrefixOf word.chars = true
  · rw [if_pos infinity, if_pos infinity]
    rfl
  · rw [if_neg infinity, if_neg infinity]
    by_cases notNumber : "NaN".toList.isPrefixOf word.chars = true
    · rw [if_pos notNumber, if_pos notNumber]
      rfl
    · rw [if_neg notNumber, if_neg notNumber]

/-- A word has no sign, so a number is found on it as a magnitude is. -/
theorem scan_number_word_eq (word : Word) :
    grammar.scan .number (written (.word word :: others)) =
      scanMagnitude (word.chars ++ gap others) := by
  obtain ⟨first, rest, same, start, -⟩ := word.chars_eq
  have notSign : first ≠ '-' := by
    rintro rfl
    rcases start with letter | underscore <;> contradiction
  change scanNumber (word.chars ++ gap others) = _
  simp [scanNumber, same, notSign]

/-- A word that does not start like a number is none. -/
@[simp] theorem scan_number_word {word : Word} (notNumeral : word.isNumeral = false) :
    grammar.scan .number (written (.word word :: others)) = none := by
  rw [Word.isNumeral, Bool.or_eq_false_iff] at notNumeral
  rw [scan_number_word_eq, scanMagnitude_word, notNumeral.1, notNumeral.2]
  rfl

/-- What the number token leaves of an identifier begins with a word character. -/
theorem scan_number_numeral {name : Identifier} (numeral : name.isNumeral = true) :
    ∃ taken first rest, grammar.scan .number (written (.name name :: others)) =
      some (taken, first :: rest) ∧ isWordChar first = true := by
  have leaves {spelling : List Char} (isPrefix : spelling.isPrefixOf name.chars = true)
      (reserved : reservedWords.contains spelling = true) :
      ∃ first rest, (name.chars ++ gap others).drop spelling.length = first :: rest ∧
        isWordChar first = true := by
    obtain ⟨rest, same⟩ := List.isPrefixOf_iff_prefix.mp isPrefix
    cases rest with
    | nil =>
      have free := name.free
      rw [← same, List.append_nil, reserved] at free
      contradiction
    | cons first rest =>
      refine ⟨first, rest ++ gap others, by simp [← same], ?_⟩
      refine List.all_eq_true.mp name.all_isWordChar first ?_
      simp [← same]
  rw [Word.isNumeral, Bool.or_eq_true] at numeral
  rw [scan_number_word_eq, scanMagnitude_word]
  split
  · next infinity =>
    obtain ⟨first, rest, same, wordChar⟩ := leaves infinity (by decide)
    exact ⟨_, first, rest, congrArg (fun last => some (_, last)) same, wordChar⟩
  · next notInfinity =>
    have notNumber := numeral.resolve_left notInfinity
    obtain ⟨first, rest, same, wordChar⟩ := leaves notNumber (by decide)
    rw [if_pos notNumber]
    exact ⟨_, first, rest, congrArg (fun last => some (_, last)) same, wordChar⟩

end Taken

end InterfaceAudit.Idl
