import InterfaceAudit.Proofs.Idl.Written.Token

/-!
Primitive types in a written text.
-/

namespace InterfaceAudit.Idl

open Grammar

def Word.unsigned : Word := ⟨"unsigned".toList, by decide⟩

def Word.unrestricted : Word := ⟨"unrestricted".toList, by decide⟩

def Word.short : Word := ⟨"short".toList, by decide⟩

def Word.long : Word := ⟨"long".toList, by decide⟩

def Word.float : Word := ⟨"float".toList, by decide⟩

def Word.double : Word := ⟨"double".toList, by decide⟩

inductive PrimitiveType where
  | short (isUnsigned : Bool)
  | long (isUnsigned : Bool)
  | longLong (isUnsigned : Bool)
  | float (isUnrestricted : Bool)
  | double (isUnrestricted : Bool)
  deriving DecidableEq, Repr

/-- A modifier stands in front of the words or is absent. -/
def modified (modifier : Word) (isPresent : Bool) (words : List Word) : List Word :=
  if isPresent then modifier :: words else words

def PrimitiveType.words : PrimitiveType → List Word
  | .short isUnsigned => modified .unsigned isUnsigned [.short]
  | .long isUnsigned => modified .unsigned isUnsigned [.long]
  | .longLong isUnsigned => modified .unsigned isUnsigned [.long, .long]
  | .float isUnrestricted => modified .unrestricted isUnrestricted [.float]
  | .double isUnrestricted => modified .unrestricted isUnrestricted [.double]

/-- A primitive type has at least one word. -/
theorem PrimitiveType.words_eq (type : PrimitiveType) :
    ∃ word rest, type.words = word :: rest := by
  cases type with
  | short isModified | long isModified | longLong isModified | float isModified
  | double isModified => cases isModified <;> exact ⟨_, _, rfl⟩

def PrimitiveType.lexemes (type : PrimitiveType) : List Lexeme := type.words.map .word

/-- What may stand behind the body of a type: nothing that the body could go on with. -/
def followsBody : List Lexeme → Bool
  | [] => true
  | .mark mark :: _ => mark != .less
  | .ellipsis :: _ => true
  | .word word :: _ => word.chars != Word.long.chars
  | _ => false

/-! ### Equations of scans -/

@[simp] theorem none_andThen (second : List Char → Scan) : Scan.andThen none second = none := rfl

/-- A scan behind one that has succeeded adds what it takes. -/
@[simp] theorem some_andThen (taken rest : List Char) (second : List Char → Scan) :
    Scan.andThen (some (taken, rest)) second =
      (second rest).map fun scan => (taken ++ scan.1, scan.2) := by
  cases found : second rest <;> simp [Scan.andThen, found]

/-- Falling back on another scan is the alternative of optional values. -/
theorem match_eq_or (first second : Scan) :
    (match first with
      | some scan => some scan
      | none => second) = first.or second := by
  cases first <;> rfl

/-- A modifier is tried before the words alone. -/
theorem scanModified_eq (modifier : List Char) (words : List Char → Scan) (text : List Char) :
    scanModified modifier words text =
      (((scanSpelling modifier text).andThen scanSpaces).andThen words).or (words text) :=
  match_eq_or _ _

/-- Integer types are tried from the longest spelling to the shortest. -/
theorem scanInteger_eq (text : List Char) :
    scanInteger text =
      ((((scanSpelling Word.long.chars text).andThen scanSpaces).andThen
        (scanSpelling Word.long.chars)).wholeWord.or
        ((scanKeyword Word.long.chars text).or (scanKeyword Word.short.chars text))) :=
  (match_eq_or _ _).trans (congrArg _ (match_eq_or _ _))

theorem scanReal_eq (text : List Char) :
    scanReal text =
      (scanKeyword Word.float.chars text).or (scanKeyword Word.double.chars text) :=
  match_eq_or _ _

/-- Integer types are tried before the others. -/
theorem scanPrimitive_eq (text : List Char) :
    scanPrimitive text =
      (scanModified Word.unsigned.chars scanInteger text).or
        (scanModified Word.unrestricted.chars scanReal text) :=
  match_eq_or _ _

/-- Whether a word ends does not depend on what was taken in front of it. -/
theorem wholeWord_map (taken rest spelling : List Char) :
    Scan.wholeWord ((scanSpelling spelling rest).map fun scan => (taken ++ scan.1, scan.2)) =
      (scanKeyword spelling rest).map fun scan => (taken ++ scan.1, scan.2) := by
  rw [scanKeyword]
  cases scanSpelling spelling rest with
  | none => rfl
  | some reading =>
    simp only [Option.map_some, Scan.wholeWord]
    split <;> rfl

variable (others : List Lexeme)

/-! ### Modifiers -/

/-- The gap in front of a lexeme is one space. -/
theorem scanSpaces_gap (lexeme : Lexeme) :
    scanSpaces (gap (lexeme :: others)) = some ([' '], written (lexeme :: others)) := by
  obtain ⟨first, rest, same, solid, -⟩ := lexeme.chars_eq
  have space : Text.isWhiteSpace ' ' = true := by decide
  simp [scanSpaces, scanWhile, gap, written, same, space, solid]

/-- White space behind a spelling begins behind a whole word. -/
theorem spelling_spaces_none {spelling : List Char} (apart : spelling.contains ' ' = false)
    {word : Word} (different : word.chars ≠ spelling) :
    (scanSpelling spelling (word.chars ++ gap others)).andThen scanSpaces = none := by
  rw [scanSpelling, isPrefixOf_gap apart]
  split
  · next isPrefix =>
    obtain ⟨rest, same⟩ := List.isPrefixOf_iff_prefix.mp isPrefix
    cases rest with
    | nil => exact absurd (by rw [← same, List.append_nil]) different
    | cons first rest =>
      have member : first ∈ word.chars := by simp [← same]
      have wordChar := List.all_eq_true.mp word.all_isWordChar first member
      have solid := isWhiteSpace_false_of_isTokenPart (isTokenPart_of_isWordChar first wordChar)
      simp [← same, Scan.andThen, scanSpaces, scanWhile, solid]
  · rfl

/-- A spelling in front of a lexeme has its space behind it. -/
theorem spelling_spaces_some (spelling : List Char) (lexeme : Lexeme) :
    (scanSpelling spelling (spelling ++ gap (lexeme :: others))).andThen scanSpaces =
      some (spelling ++ [' '], written (lexeme :: others)) := by
  simp [scanSpelling, Scan.andThen, scanSpaces_gap]

theorem spelling_spaces_end (spelling : List Char) :
    (scanSpelling spelling (spelling ++ gap [])).andThen scanSpaces = none := by
  simp [scanSpelling, Scan.andThen, gap, scanSpaces, scanWhile]

section Modifier

variable {modifier : Word} {words : List Char → Scan}

/-- A modifier that is not there is left out. -/
theorem scanModified_other {word : Word} (apart : modifier.chars.contains ' ' = false)
    (different : word.chars ≠ modifier.chars) :
    scanModified modifier.chars words (word.chars ++ gap others) =
      words (word.chars ++ gap others) := by
  rw [scanModified_eq, spelling_spaces_none others apart different]
  rfl

/-- A modifier is taken with the words behind its space. -/
theorem scanModified_same {lexeme : Lexeme} {taken rest : List Char}
    (found : words (written (lexeme :: others)) = some (taken, rest)) :
    scanModified modifier.chars words (modifier.chars ++ gap (lexeme :: others)) =
      some (modifier.chars ++ ' ' :: taken, rest) := by
  rw [scanModified_eq, spelling_spaces_some]
  simp [found]

end Modifier

/-! ### Words -/

/-- A word is found where it is written. -/
theorem scanWord_some {spelled : Word} :
    scanKeyword spelled.chars (spelled.chars ++ gap others) = some (spelled.chars, gap others) := by
  have tokenChars : spelled.chars.all Text.isTokenChar = true := by
    refine List.all_eq_true.mpr fun c member => ?_
    exact isTokenChar_of_isWordChar c (List.all_eq_true.mp spelled.all_isWordChar c member)
  rw [scanKeyword_word others tokenChars, if_pos rfl]

/-- A word is not found where another one is written. -/
theorem scanWord_none {spelled word : Word} (different : word.chars ≠ spelled.chars) :
    scanKeyword spelled.chars (word.chars ++ gap others) = none := by
  have tokenChars : spelled.chars.all Text.isTokenChar = true := by
    refine List.all_eq_true.mpr fun c member => ?_
    exact isTokenChar_of_isWordChar c (List.all_eq_true.mp spelled.all_isWordChar c member)
  rw [scanKeyword_word others tokenChars, if_neg different]

/-- No word has a space in it, so two words are never one. -/
theorem Word.contains_space (word : Word) : word.chars.contains ' ' = false := by
  rw [← Bool.not_eq_true, List.contains_iff_mem]
  intro member
  have wordChar := List.all_eq_true.mp word.all_isWordChar ' ' member
  contradiction

/-- Any other word is no integer type. -/
theorem scanInteger_none {word : Word} (notLong : word.chars ≠ Word.long.chars)
    (notShort : word.chars ≠ Word.short.chars) :
    scanInteger (word.chars ++ gap others) = none := by
  rw [scanInteger_eq, spelling_spaces_none others Word.long.contains_space notLong,
    scanWord_none others notLong, scanWord_none others notShort]
  rfl

/-- Any other word is no floating type. -/
theorem scanReal_none {word : Word} (notFloat : word.chars ≠ Word.float.chars)
    (notDouble : word.chars ≠ Word.double.chars) :
    scanReal (word.chars ++ gap others) = none := by
  rw [scanReal_eq, scanWord_none others notFloat, scanWord_none others notDouble]
  rfl

/-- What may stand behind a type is no second part of a long integer. -/
theorem scanLong_none (follows : followsBody others = true) :
    scanKeyword Word.long.chars (written others) = none := by
  cases others with
  | nil => rfl
  | cons lexeme rest =>
    cases lexeme with
    | mark kind => cases kind <;> rfl
    | ellipsis => rfl
    | word content => exact scanWord_none rest (by simpa [followsBody] using follows)
    | pair | number | quoted => contradiction

theorem scanInteger_short :
    scanInteger (Word.short.chars ++ gap others) = some (Word.short.chars, gap others) := by
  have notLong : Word.short.chars ≠ Word.long.chars := by decide
  rw [scanInteger_eq, spelling_spaces_none others Word.long.contains_space notLong,
    scanWord_none others notLong, scanWord_some]
  rfl

/-- One word is taken alone when the second one does not follow. -/
theorem scanInteger_long (follows : followsBody others = true) :
    scanInteger (Word.long.chars ++ gap others) = some (Word.long.chars, gap others) := by
  have once : (((scanSpelling Word.long.chars (Word.long.chars ++ gap others)).andThen
      scanSpaces).andThen (scanSpelling Word.long.chars)).wholeWord = none := by
    cases others with
    | nil =>
      rw [spelling_spaces_end]
      rfl
    | cons lexeme rest =>
      rw [spelling_spaces_some, some_andThen, wholeWord_map, scanLong_none _ follows]
      rfl
  rw [scanInteger_eq, once, scanWord_some]
  rfl

/-- Two words are taken together, although the first one is a type by itself. -/
theorem scanInteger_longLong :
    scanInteger (Word.long.chars ++ gap (.word .long :: others)) =
      some (Word.long.chars ++ ' ' :: Word.long.chars, gap others) := by
  have second : scanKeyword Word.long.chars (written (.word .long :: others)) =
      some (Word.long.chars, gap others) := scanWord_some others
  rw [scanInteger_eq, spelling_spaces_some, some_andThen, wholeWord_map, second]
  rfl

theorem scanReal_float :
    scanReal (Word.float.chars ++ gap others) = some (Word.float.chars, gap others) := by
  rw [scanReal_eq, scanWord_some]
  rfl

theorem scanReal_double :
    scanReal (Word.double.chars ++ gap others) = some (Word.double.chars, gap others) := by
  rw [scanReal_eq, scanWord_none others (by decide), scanWord_some]
  rfl

/-! ### Types -/

/-- A word that no primitive type has starts none. -/
@[simp] theorem scan_primitive_word {word : Word}
    (notPrimitive : primitiveWords.contains word.chars = false) :
    grammar.scan .primitive (written (.word word :: others)) = none := by
  have different {spelled : Word} (isPrimitive : primitiveWords.contains spelled.chars = true) :
      word.chars ≠ spelled.chars := by
    intro same
    rw [same, isPrimitive] at notPrimitive
    contradiction
  change scanPrimitive (word.chars ++ gap others) = none
  rw [scanPrimitive_eq, scanModified_other others Word.unsigned.contains_space
      (different (by decide)), scanModified_other others Word.unrestricted.contains_space
      (different (by decide)), scanInteger_none others (different (by decide))
      (different (by decide)), scanReal_none others (different (by decide))
      (different (by decide))]
  rfl

/-- A modifier and the words behind it are read together. -/
theorem scanModified_modified {modifier word : Word} (isPresent : Bool) {words : List Word}
    {scan : List Char → Scan} (different : word.chars ≠ modifier.chars)
    (found : scan (written ((word :: words).map .word ++ others)) =
      some (written ((word :: words).map .word), gap others)) :
    scanModified modifier.chars scan
        (written ((modified modifier isPresent (word :: words)).map .word ++ others)) =
      some (written ((modified modifier isPresent (word :: words)).map .word), gap others) := by
  cases isPresent with
  | false => exact (scanModified_other _ modifier.contains_space different).trans found
  | true => exact scanModified_same _ found

/-- The words of a real type are no integer type. -/
theorem scanModified_none {word : Word} (notUnsigned : word.chars ≠ Word.unsigned.chars)
    (notLong : word.chars ≠ Word.long.chars) (notShort : word.chars ≠ Word.short.chars) :
    scanModified Word.unsigned.chars scanInteger (word.chars ++ gap others) = none := by
  rw [scanModified_other others Word.unsigned.contains_space notUnsigned,
    scanInteger_none others notLong notShort]

/-- A primitive type is read with all its words. -/
theorem scan_primitive (type : PrimitiveType) (follows : followsBody others = true) :
    grammar.scan .primitive (written (type.lexemes ++ others)) =
      some (written type.lexemes, gap others) := by
  have integer {text taken rest : List Char}
      (found : scanModified Word.unsigned.chars scanInteger text = some (taken, rest)) :
      grammar.scan .primitive text = some (taken, rest) := by
    change scanPrimitive text = _
    rw [scanPrimitive_eq, found]
    rfl
  have real {text taken rest : List Char}
      (missing : scanModified Word.unsigned.chars scanInteger text = none)
      (found : scanModified Word.unrestricted.chars scanReal text = some (taken, rest)) :
      grammar.scan .primitive text = some (taken, rest) := by
    change scanPrimitive text = _
    rw [scanPrimitive_eq, missing, found]
    rfl
  cases type with
  | short isUnsigned =>
    exact integer (scanModified_modified others isUnsigned (by decide) (scanInteger_short others))
  | long isUnsigned =>
    exact integer
      (scanModified_modified others isUnsigned (by decide) (scanInteger_long others follows))
  | longLong isUnsigned =>
    exact integer
      (scanModified_modified others isUnsigned (by decide) (scanInteger_longLong others))
  | float isUnrestricted =>
    refine real ?_
      (scanModified_modified others isUnrestricted (by decide) (scanReal_float others))
    cases isUnrestricted <;> exact scanModified_none _ (by decide) (by decide) (by decide)
  | double isUnrestricted =>
    refine real ?_
      (scanModified_modified others isUnrestricted (by decide) (scanReal_double others))
    cases isUnrestricted <;> exact scanModified_none _ (by decide) (by decide) (by decide)

/-- An identifier behind a primitive type is not taken for its second word. -/
@[simp] theorem Identifier.ne_long (name : Identifier) : name.chars ≠ Word.long.chars := by
  intro same
  have notPrimitive := name.not_primitive
  rw [same] at notPrimitive
  contradiction

end InterfaceAudit.Idl
