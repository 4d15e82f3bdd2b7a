import InterfaceAudit.Proofs.Idl.Written.Primitive
import InterfaceAudit.Proofs.Idl.Written.Reading
import InterfaceAudit.Proofs.Idl.Written.Spelling

/-!
Types in a written text.
A sound type is read back as the tree that was written, with the squeezed spelling of its lexemes.
A type with two question marks at one place is not sound: one of them stays in the text.
-/

namespace InterfaceAudit.Idl

open Grammar
open Grammar.Expression (skipThen thenSkip firstOf present)

/-- A union has two alternatives or more, and any type may be made nullable. -/
inductive TypeTree where
  | named (name : Identifier)
  | primitive (type : PrimitiveType)
  | generic (name : Identifier) (first : TypeTree) (others : List TypeTree)
  | union (first second : TypeTree) (others : List TypeTree)
  | nullable (inner : TypeTree)

def TypeTree.isNullable : TypeTree → Bool
  | .nullable _ => true
  | _ => false

mutual

def TypeTree.lexemes : TypeTree → List Lexeme
  | .named name => [.name name]
  | .primitive type => type.lexemes
  | .generic name first others =>
    .name name :: .mark .less ::
      (first.lexemes ++ (typesBehind (.mark .comma) others ++ [.mark .greater]))
  | .union first second others =>
    .mark .openParenthesis ::
      (first.lexemes ++ (.keyword .or :: (second.lexemes ++
        (typesBehind (.keyword .or) others ++ [.mark .closeParenthesis]))))
  | .nullable inner => inner.lexemes ++ [.mark .question]

/-- Types with a separator in front of each. -/
def typesBehind (separator : Lexeme) : List TypeTree → List Lexeme
  | [] => []
  | type :: others => separator :: (type.lexemes ++ typesBehind separator others)

end

mutual

/-- The grammar takes one question mark at each place. -/
def TypeTree.sound : TypeTree → Bool
  | .named _ => true
  | .primitive _ => true
  | .generic _ first others => first.sound && typesSound others
  | .union first second others => first.sound && second.sound && typesSound others
  | .nullable inner => !inner.isNullable && inner.sound

def typesSound : List TypeTree → Bool
  | [] => true
  | type :: others => type.sound && typesSound others

end

mutual

def TypeTree.form : TypeTree → TypeForm
  | .named name => .named (String.ofList name.chars)
  | .primitive type => .primitive (type.words.map fun word => String.ofList word.chars)
  | .generic name first others =>
    .generic (String.ofList name.chars) (first.form :: formsOf others)
  | .union first second others => .union (first.form :: second.form :: formsOf others)
  | .nullable inner => .nullable inner.form

def formsOf : List TypeTree → List TypeForm
  | [] => []
  | type :: others => type.form :: formsOf others

end

/-- The mark of a nullable type follows its squeezed body. -/
def TypeTree.text : TypeTree → String
  | .nullable inner => inner.text ++ "?"
  | type => String.ofList (spelled type.lexemes)

def TypeTree.use (type : TypeTree) : TypeUse := ⟨type.form, type.text⟩

/-- A type without a question mark is shown as its glued pieces. -/
theorem TypeTree.text_of_not_nullable {type : TypeTree} (solid : type.isNullable = false) :
    type.text = String.ofList (spelled type.lexemes) := by
  cases type with
  | named | primitive | generic | union => rfl
  | nullable => contradiction

/-- The forms of several types are those of each of them. -/
theorem formsOf_eq_map (types : List TypeTree) : formsOf types = types.map TypeTree.form := by
  induction types with
  | nil => rfl
  | cons type others inductionHypothesis => rw [formsOf, inductionHypothesis, List.map_cons]

/-! ### First lexemes -/

/-- A type begins with a parenthesis or with a word that is no keyword. -/
inductive BeginsType : Lexeme → Prop where
  | parenthesis : BeginsType (.mark .openParenthesis)
  | word {word : Word} (free : ∀ keyword : Keyword, word.chars ≠ keyword.spelling) :
    BeginsType (.word word)

/-- No primitive type begins with a keyword. -/
theorem beginsType_primitive (type : PrimitiveType) :
    ∃ first rest, type.lexemes = first :: rest ∧ BeginsType first := by
  have free {word : Word} (isPrimitive : primitiveWords.contains word.chars = true)
      (keyword : Keyword) : word.chars ≠ keyword.spelling := by
    intro same
    have apart : primitiveWords.contains keyword.spelling = false := by
      cases keyword <;> decide
    rw [same, apart] at isPrimitive
    contradiction
  cases type with
  | short isModified | long isModified | longLong isModified | float isModified
  | double isModified =>
    cases isModified <;> exact ⟨_, _, rfl, .word (free (by decide))⟩

/-- Every type begins with a parenthesis or with a word that is no keyword. -/
theorem TypeTree.lexemes_eq (type : TypeTree) :
    ∃ first rest, type.lexemes = first :: rest ∧ BeginsType first := by
  match type with
  | .named name => exact ⟨_, _, by rw [lexemes], .word name.ne_spelling⟩
  | .primitive type =>
    rw [lexemes]
    exact beginsType_primitive type
  | .generic name first others => exact ⟨_, _, by rw [lexemes], .word name.ne_spelling⟩
  | .union first second others => exact ⟨_, _, by rw [lexemes], .parenthesis⟩
  | .nullable inner =>
    obtain ⟨first, rest, same, begins⟩ := inner.lexemes_eq
    exact ⟨first, rest ++ [.mark .question], by simp [lexemes, same], begins⟩

theorem TypeTree.lexemes_ne_nil (type : TypeTree) : type.lexemes ≠ [] := by
  obtain ⟨first, rest, same, -⟩ := type.lexemes_eq
  simp [same]

section FirstLexemes

variable (others : List Lexeme)

/-- No keyword is found where a type begins. -/
theorem scan_keyword_begins (keyword : Keyword) {first : Lexeme} (begins : BeginsType first) :
    grammar.scan (.keyword keyword) (written (first :: others)) = none := by
  cases begins with
  | parenthesis => simp
  | word free => simp [free]

/-- No mark but a parenthesis is found where a type begins. -/
theorem scan_symbol_begins {mark : Char} (notPart : isTokenPart mark = false)
    (notParenthesis : '(' ≠ mark) {first : Lexeme} (begins : BeginsType first) :
    grammar.scan (.symbol mark) (written (first :: others)) = none := by
  cases begins with
  | parenthesis => simp [Mark.char, notParenthesis]
  | word free => simp [notPart]

/-- No keyword is found in front of a written type. -/
@[simp] theorem scan_keyword_type (keyword : Keyword) (type : TypeTree) :
    grammar.scan (.keyword keyword) (written (type.lexemes ++ others)) = none := by
  obtain ⟨first, rest, same, begins⟩ := type.lexemes_eq
  rw [same]
  exact scan_keyword_begins _ keyword begins

/-- No mark but a parenthesis is found in front of a written type. -/
@[simp] theorem scan_symbol_type {mark : Char} (notPart : isTokenPart mark = false)
    (notParenthesis : '(' ≠ mark) (type : TypeTree) :
    grammar.scan (.symbol mark) (written (type.lexemes ++ others)) = none := by
  obtain ⟨first, rest, same, begins⟩ := type.lexemes_eq
  rw [same]
  exact scan_symbol_begins _ notPart notParenthesis begins

end FirstLexemes

/-! ### What follows a type -/

/-- What may stand behind a type is no second question mark either. -/
def followsType : List Lexeme → Bool
  | .mark .question :: _ => false
  | others => followsBody others

/-- What may follow a whole type may follow its body. -/
theorem followsBody_of_followsType {others : List Lexeme} (follows : followsType others = true) :
    followsBody others = true := by
  unfold followsType at follows
  split at follows
  · contradiction
  · exact follows

@[simp] theorem followsType_name (name : Identifier) (others : List Lexeme) :
    followsType (.name name :: others) = true := by
  simp [followsType, followsBody]

/-- A keyword ends the type in front of it, since none of them is a word of a type. -/
@[simp] theorem followsType_keyword (keyword : Keyword) (others : List Lexeme) :
    followsType (.keyword keyword :: others) = true := by
  have different : keyword.spelling ≠ Word.long.chars := by cases keyword <;> decide
  simp [followsType, followsBody, different]

@[simp] theorem followsType_ellipsis (others : List Lexeme) :
    followsType (.ellipsis :: others) = true := by
  simp [followsType, followsBody]

/-- Every mark ends a type but a question mark and the one that opens its arguments. -/
@[simp] theorem followsType_mark {mark : Mark} (notQuestion : mark ≠ .question)
    (notLess : mark ≠ .less) (others : List Lexeme) :
    followsType (.mark mark :: others) = true := by
  cases mark <;> first | rfl | contradiction

/-! ### Readings of types -/

theorem read_type_eq (text : List Char) : grammar.read type text = grammar.read typeRule text :=
  progressive.read_rule .type text

/-- A section of extended attributes begins with a bracket. -/
theorem read_extAttrSection_none {text : List Char}
    (noBracket : grammar.scan (.symbol '[') text = none) :
    grammar.read extAttrSection text = none := by
  simp [extAttrSection, noBracket]

/-- Without attributes in front, a type is its body and perhaps a question mark. -/
theorem read_type_bare {text : List Char} (missing : grammar.read extAttrSection text = none) :
    grammar.read type text =
      (grammar.read (.seq (.source typeBody) (present (skipThen blank (symbol '?')))) text).map
        fun reading => (useOfType reading.1.1 reading.1.2, reading.2) := by
  have noSection : grammar.read (spaced extAttrSection) text = none := by
    rw [read_spaced, missing, Option.map_none]
  rw [read_type_eq, typeRule, read_map, read_seq, read_optional_of_none _ noSection,
    Option.bind_some, Option.map_map]
  rfl

/-- Behind a body that is read, only the question mark is left to look for. -/
theorem read_type_of_body {text rest : List Char} {form : TypeForm}
    (noBracket : grammar.scan (.symbol '[') text = none)
    (found : grammar.read typeBody text = some (form, rest)) :
    grammar.read type text =
      (grammar.read (present (skipThen blank (symbol '?'))) rest).map fun mark =>
        (useOfType (consumed text rest, form) mark.1, mark.2) := by
  rw [read_type_bare (read_extAttrSection_none noBracket), read_seq, read_source, found,
    Option.map_some, Option.bind_some, Option.map_map]
  rfl

/-- Without a body there is no type. -/
theorem read_type_of_body_none {text : List Char}
    (missing : grammar.read extAttrSection text = none)
    (noBody : grammar.read typeBody text = none) : grammar.read type text = none := by
  rw [read_type_bare missing, read_seq, read_source, noBody]
  rfl

/-- What may follow a type is no question mark. -/
theorem scan_question_none {others : List Lexeme} (follows : followsType others = true) :
    grammar.scan (.symbol '?') (written others) = none := by
  cases others with
  | nil => rfl
  | cons lexeme rest =>
    cases lexeme with
    | mark kind => cases kind <;> first | rfl | contradiction
    | ellipsis => rfl
    | word content => exact scan_symbol_word rest (by decide) content
    | pair | number | quoted => contradiction

/-- Without a question mark a type is not nullable, and nothing is taken. -/
theorem read_nullable_none {others : List Lexeme}
    (noQuestion : grammar.scan (.symbol '?') (written others) = none) :
    grammar.read (present (skipThen blank (symbol '?'))) (gap others) =
      some (false, gap others) := by
  have missing : grammar.read (skipThen blank (symbol '?')) (gap others) = none := by
    simp [noQuestion]
  rw [read_present, read_optional_of_none _ missing]
  rfl

/-- A question mark behind a gap belongs to the type. -/
theorem read_nullable_some (others : List Lexeme) :
    grammar.read (present (skipThen blank (symbol '?'))) (gap (.mark .question :: others)) =
      some (true, gap others) := by
  have found : grammar.read (skipThen blank (symbol '?')) (gap (.mark .question :: others)) =
      some (['?'], gap others) := by
    simp [Mark.char]
  rw [read_present, read_optional_of_some _ found]
  rfl

/-! ### Bodies -/

/-- The words of a primitive type are those that were written. -/
theorem wordsOf_written (type : PrimitiveType) :
    wordsOf (written type.lexemes) = type.words.map fun word => String.ofList word.chars := by
  rw [wordsOf, pieces_written, PrimitiveType.lexemes]
  induction type.words with
  | nil => rfl
  | cons word words inductionHypothesis =>
    simp [Lexeme.pieces] at inductionHypothesis ⊢
    exact inductionHypothesis

section Bodies

variable {others : List Lexeme}

/-- What may follow a body does not open the arguments of a generic type. -/
theorem scan_less_none (follows : followsBody others = true) :
    grammar.scan (.symbol '<') (written others) = none := by
  cases others with
  | nil => rfl
  | cons lexeme rest =>
    cases lexeme with
    | mark kind => cases kind <;> first | rfl | contradiction
    | ellipsis => rfl
    | word content => exact scan_symbol_word rest (by decide) content
    | pair | number | quoted => contradiction

/-- A word that no arguments follow is a named type, unless it is a primitive one. -/
theorem read_typeBody_word {word : Word} (notPrimitive : primitiveWords.contains word.chars = false)
    (noLess : grammar.scan (.symbol '<') (written others) = none) :
    grammar.read typeBody (written (.word word :: others)) =
      some (.named (String.ofList word.chars), gap others) := by
  simp (disch := decide) [typeBody, firstOf, read_choice, read_seq, unionType, genericType,
    primitiveType, namedType, noLess, scan_primitive_word others notPrimitive]

/-- A primitive type is read with all its words. -/
theorem read_typeBody_primitive (type : PrimitiveType) (follows : followsBody others = true) :
    grammar.read typeBody (written (type.lexemes ++ others)) =
      some (.primitive (type.words.map fun word => String.ofList word.chars), gap others) := by
  obtain ⟨word, rest, same⟩ := type.words_eq
  have noLess : grammar.scan (.symbol '<') (written (rest.map .word ++ others)) = none := by
    cases rest with
    | nil => exact scan_less_none follows
    | cons next rest => exact scan_symbol_word _ (by decide) next
  have lexemes : type.lexemes = .word word :: rest.map .word := by
    rw [PrimitiveType.lexemes, same, List.map_cons]
  have found := scan_primitive others type follows
  have form := wordsOf_written type
  rw [lexemes] at found form ⊢
  simp (disch := decide) only [List.cons_append] at found ⊢
  simp (disch := decide) [typeBody, firstOf, read_choice, read_seq, unionType, genericType,
    primitiveType, noLess, found, form, same]

end Bodies

/-! ### Types -/

/-- The marks that a type leaves when it cannot take them. -/
def Mark.isLeft : Mark → Bool
  | .question | .less => true
  | _ => false

/-- If a type is read, one of its marks is left. -/
def TypeStuck (text : List Char) : Prop :=
  grammar.read type text = none ∨ ∃ use mark rest, mark.isLeft = true ∧
    grammar.read type text = some (use, gap (.mark mark :: rest))

section Stuck

variable {Value : Type} {text : List Char} (stuck : TypeStuck text) {next : Phrase Value}
  (fails : ∀ mark rest, mark.isLeft = true →
    grammar.read next (written (.mark mark :: rest)) = none)

include stuck fails

/-- Nothing that needs a type and something behind it is read from a stuck one. -/
theorem TypeStuck.seq_none : grammar.read (.seq (spaced type) next) text = none := by
  rw [read_seq, read_spaced]
  rcases stuck with found | ⟨use, mark, rest, isLeft, found⟩
  · rw [found]
    rfl
  · rw [found, Option.map_some, Option.bind_some, afterBlank_gap, fails mark rest isLeft]
    rfl

theorem TypeStuck.thenSkip_none : grammar.read (thenSkip (spaced type) next) text = none := by
  rw [thenSkip, read_map, stuck.seq_none fails, Option.map_none]

end Stuck

/-- A sound type is read wherever it stands, and the reading of another one is stuck. -/
structure ReadsType (type : TypeTree) : Prop where
  body_of_sound : type.sound = true → type.isNullable = false → ∀ {others},
    followsBody others = true →
      grammar.read typeBody (written (type.lexemes ++ others)) = some (type.form, gap others)
  read_of_sound : type.sound = true → ∀ {others},
    (type.isNullable || followsType others) = true →
      grammar.read Idl.type (written (type.lexemes ++ others)) = some (type.use, gap others)
  stuck_of_unsound : type.sound = false → ∀ {others},
    TypeStuck (written (type.lexemes ++ others))

/-- A type that is not nullable is read as its body is. -/
theorem readsType_of_body {type : TypeTree} (solid : type.isNullable = false)
    (body : type.sound = true → ∀ {others}, followsBody others = true →
      grammar.read typeBody (written (type.lexemes ++ others)) = some (type.form, gap others))
    (stuck : type.sound = false → ∀ {others}, TypeStuck (written (type.lexemes ++ others))) :
    ReadsType type where
  body_of_sound isSound _ _ := body isSound
  read_of_sound isSound others follows := by
    rw [solid, Bool.false_or] at follows
    have noBracket : grammar.scan (.symbol '[') (written (type.lexemes ++ others)) = none :=
      scan_symbol_type others (by decide) (by decide) type
    have found := body isSound (followsBody_of_followsType follows)
    rw [read_type_of_body noBracket found,
      read_nullable_none (scan_question_none follows),
      consumed_gap type.lexemes_ne_nil]
    simp [useOfType, squeezed, TypeTree.use, type.text_of_not_nullable solid]
  stuck_of_unsound := stuck

/-- One question mark is read with its type, and a second one stays behind it. -/
theorem readsType_nullable {inner : TypeTree} (reads : ReadsType inner) :
    ReadsType (.nullable inner) where
  body_of_sound _ solid := by contradiction
  read_of_sound isSound others _ := by
    simp only [TypeTree.sound, Bool.and_eq_true, Bool.not_eq_true'] at isSound
    have noBracket : grammar.scan (.symbol '[')
        (written (inner.lexemes ++ .mark .question :: others)) = none :=
      scan_symbol_type _ (by decide) (by decide) inner
    have found := reads.body_of_sound isSound.2 isSound.1
      (show followsBody (.mark .question :: others) = true from rfl)
    rw [TypeTree.lexemes, List.append_assoc, List.singleton_append,
      read_type_of_body noBracket found, read_nullable_some, consumed_gap inner.lexemes_ne_nil]
    simp [useOfType, squeezed, TypeTree.use, TypeTree.form, TypeTree.text,
      inner.text_of_not_nullable isSound.1]
  stuck_of_unsound unsound others := by
    rw [TypeTree.lexemes, List.append_assoc, List.singleton_append]
    by_cases isSound : inner.sound = true
    · -- the inner mark is taken, and the outer one is left
      have doubled : inner.isNullable = true := by
        simpa [TypeTree.sound, isSound] using unsound
      have found := @reads.read_of_sound isSound (.mark .question :: others)
        (by rw [doubled, Bool.true_or])
      exact .inr ⟨inner.use, .question, others, rfl, found⟩
    · exact reads.stuck_of_unsound (eq_false_of_ne_true isSound)

/-! ### Lists of types -/

/-- The types of a list are separated by a lexeme that the closing mark differs from. -/
structure SeparatesTypes (phrase : Phrase (List Char)) (separator : Lexeme) (closing : Mark) :
    Prop where
  separates : ∀ others, ∃ taken,
    grammar.read (spaced phrase) (written (separator :: others)) = some (taken, written others)
  goesOn : ∀ others, followsType (separator :: others) = true
  ends : ∀ others, followsType (.mark closing :: others) = true
  stops : ∀ {mark : Mark}, mark = closing ∨ mark.isLeft = true → ∀ others,
    grammar.read (spaced phrase) (written (.mark mark :: others)) = none
  opens : ∀ {mark : Mark}, mark.isLeft = true → ∀ others,
    grammar.scan (.symbol closing.char) (written (.mark mark :: others)) = none
  closes : ∀ others, grammar.scan (.symbol closing.char) (written (separator :: others)) = none

/-- Commas separate the arguments of a generic type. -/
theorem separatesTypes_comma : SeparatesTypes (symbol ',') (.mark .comma) .greater where
  separates others := ⟨[','], by simp [Mark.char]⟩
  goesOn _ := rfl
  ends _ := rfl
  stops {mark} different others := by cases mark <;> simp_all [Mark.char, Mark.isLeft]
  opens {mark} isLeft others := by cases mark <;> simp_all [Mark.char, Mark.isLeft]
  closes others := by simp [Mark.char]

/-- The word between alternatives separates the types of a union. -/
theorem separatesTypes_or : SeparatesTypes (keyword .or) (.keyword .or) .closeParenthesis where
  separates others := ⟨Keyword.or.spelling, by simp⟩
  goesOn others := followsType_keyword .or others
  ends _ := rfl
  stops _ others := by simp
  opens {mark} isLeft others := by cases mark <;> simp_all [Mark.char, Mark.isLeft]
  closes others := by simp (disch := decide) [Mark.char]

section Lists

variable {phrase : Phrase (List Char)} {separator : Lexeme} {closing : Mark}
  (apart : SeparatesTypes phrase separator closing)

include apart

/-- A separator or the closing mark may follow each type of a list. -/
theorem followsType_typesBehind (types : List TypeTree) (others : List Lexeme) :
    followsType (typesBehind separator types ++ .mark closing :: others) = true := by
  cases types with
  | nil => exact apart.ends others
  | cons type types => exact apart.goesOn _

/-- Behind the separator the type is read. -/
theorem read_typeBehind (lexemes : List Lexeme) :
    grammar.read (skipThen (spaced phrase) (spaced Idl.type)) (written (separator :: lexemes)) =
      (grammar.read Idl.type (written lexemes)).map fun reading =>
        (reading.1, afterBlank reading.2) := by
  obtain ⟨taken, found⟩ := apart.separates lexemes
  rw [read_skipThen, found, Option.bind_some, read_spaced]

/-- A type behind a separator is read before the rest of the list. -/
theorem readMany_typeBehind {lexemes others : List Lexeme} {use : TypeUse}
    (found : grammar.read Idl.type (written lexemes) = some (use, gap others)) :
    readMany (grammar.read (skipThen (spaced phrase) (spaced Idl.type)))
        (written (separator :: lexemes)) =
      ((use :: (readMany (grammar.read (skipThen (spaced phrase) (spaced Idl.type)))
        (written others)).1),
        (readMany (grammar.read (skipThen (spaced phrase) (spaced Idl.type)))
          (written others)).2) := by
  have read := read_typeBehind apart lexemes
  rw [found, Option.map_some, afterBlank_gap] at read
  have solid : (skipThen (spaced phrase) (spaced Idl.type)).mayBeEmpty progressive.emptyToken =
      false := by
    have same : (skipThen (spaced phrase) (spaced Idl.type)).mayBeEmpty progressive.emptyToken =
        ((phrase.mayBeEmpty progressive.emptyToken && true) && false) := rfl
    rw [same, Bool.and_false]
  exact readMany_of_some read (progressive.read_length_lt _ solid read)

/-- A list of sound types is read up to the mark that closes it. -/
theorem readMany_typesBehind {types : List TypeTree} (reads : ∀ type ∈ types, ReadsType type)
    (allSound : typesSound types = true) (others : List Lexeme) :
    readMany (grammar.read (skipThen (spaced phrase) (spaced Idl.type)))
        (written (typesBehind separator types ++ .mark closing :: others)) =
      (types.map TypeTree.use, written (.mark closing :: others)) := by
  induction types with
  | nil =>
    refine readMany_of_none ?_
    rw [typesBehind, List.nil_append, read_skipThen, apart.stops (.inl rfl), Option.bind_none]
  | cons type types inductionHypothesis =>
    rw [List.forall_mem_cons] at reads
    rw [typesSound, Bool.and_eq_true] at allSound
    have follows := followsType_typesBehind apart types others
    have found := reads.1.read_of_sound allSound.1 (by rw [follows, Bool.or_true])
    rw [typesBehind, List.cons_append, List.append_assoc, readMany_typeBehind apart found,
      inductionHypothesis reads.2 allSound.2]
    rfl

/-- A mark that a type left is not read behind it. -/
theorem read_typesBehind_left {mark : Mark} (isLeft : mark.isLeft = true) (others : List Lexeme) :
    readMany (grammar.read (skipThen (spaced phrase) (spaced Idl.type)))
        (written (.mark mark :: others)) = ([], written (.mark mark :: others)) := by
  refine readMany_of_none ?_
  rw [read_skipThen, apart.stops (.inr isLeft), Option.bind_none]

/-- With an unsound type the reading does not reach the closing mark. -/
theorem readMany_typesBehind_unsound {types : List TypeTree}
    (reads : ∀ type ∈ types, ReadsType type) (unsound : typesSound types = false)
    (others : List Lexeme) :
    grammar.scan (.symbol closing.char)
      (readMany (grammar.read (skipThen (spaced phrase) (spaced Idl.type)))
        (written (typesBehind separator types ++ .mark closing :: others))).2 = none := by
  induction types with
  | nil => contradiction
  | cons type types inductionHypothesis =>
    rw [List.forall_mem_cons] at reads
    rw [typesBehind, List.cons_append, List.append_assoc]
    by_cases isSound : type.sound = true
    · have follows := followsType_typesBehind apart types others
      have found := reads.1.read_of_sound isSound (by rw [follows, Bool.or_true])
      have othersUnsound : typesSound types = false := by
        simpa [typesSound, isSound] using unsound
      rw [readMany_typeBehind apart found]
      exact inductionHypothesis reads.2 othersUnsound
    · have stuck : TypeStuck (written
          (type.lexemes ++ (typesBehind separator types ++ .mark closing :: others))) :=
        reads.1.stuck_of_unsound (eq_false_of_ne_true isSound)
      rcases stuck with found | ⟨use, mark, rest, isLeft, found⟩
      · have missing := read_typeBehind apart
          (type.lexemes ++ (typesBehind separator types ++ .mark closing :: others))
        rw [found, Option.map_none] at missing
        rw [readMany_of_none missing]
        exact apart.closes _
      · rw [readMany_typeBehind apart found, read_typesBehind_left apart isLeft]
        exact apart.opens isLeft rest

/-- A list of types is read with its closing mark when all of them are sound. -/
theorem read_typesBehind {types : List TypeTree} (reads : ∀ type ∈ types, ReadsType type)
    (others : List Lexeme) :
    grammar.read (thenSkip (.many (skipThen (spaced phrase) (spaced Idl.type)))
        (symbol closing.char)) (written (typesBehind separator types ++ .mark closing :: others)) =
      if typesSound types then some (types.map TypeTree.use, gap others) else none := by
  rw [read_thenSkip, read_many, Option.bind_some, read_symbol]
  split
  · next allSound =>
    rw [readMany_typesBehind apart reads allSound]
    simp
  · next unsound =>
    rw [readMany_typesBehind_unsound apart reads (eq_false_of_ne_true unsound), Option.map_none]

/-- A first type is read together with the types behind it. -/
theorem read_types {first : TypeTree} {types : List TypeTree} (readsFirst : ReadsType first)
    (reads : ∀ type ∈ types, ReadsType type) (others : List Lexeme) :
    grammar.read (.seq (spaced Idl.type) (thenSkip
        (.many (skipThen (spaced phrase) (spaced Idl.type))) (symbol closing.char)))
        (written (first.lexemes ++ (typesBehind separator types ++ .mark closing :: others))) =
      if first.sound && typesSound types then some ((first.use, types.map TypeTree.use), gap others)
      else none := by
  by_cases isSound : first.sound = true
  · have follows := followsType_typesBehind apart types others
    have found := readsFirst.read_of_sound isSound (by rw [follows, Bool.or_true])
    rw [read_seq, read_spaced, found, Option.map_some, Option.bind_some, afterBlank_gap,
      read_typesBehind apart reads, isSound, Bool.true_and]
    split <;> rfl
  · have stuck : TypeStuck (written
        (first.lexemes ++ (typesBehind separator types ++ .mark closing :: others))) :=
      readsFirst.stuck_of_unsound (eq_false_of_ne_true isSound)
    rw [if_neg (by simp [isSound]), stuck.seq_none]
    intro mark rest isLeft
    rw [read_thenSkip, read_many, read_typesBehind_left apart isLeft, Option.bind_some,
      read_symbol, apart.opens isLeft, Option.map_none]

end Lists

/-! ### Generic types and unions -/

section Compound

variable {first : TypeTree} {types : List TypeTree} (readsFirst : ReadsType first)
  (reads : ∀ type ∈ types, ReadsType type) (others : List Lexeme)

include readsFirst reads

/-- A generic type is read when all its arguments are sound. -/
theorem read_genericType (word : Word) :
    grammar.read genericType (written (.word word :: .mark .less ::
        (first.lexemes ++ (typesBehind (.mark .comma) types ++ .mark .greater :: others)))) =
      if first.sound && typesSound types then
        some (.generic (String.ofList word.chars) (first.form :: formsOf types), gap others)
      else none := by
  have list : grammar.read (.seq (spaced Idl.type)
      (thenSkip (.many (skipThen (spaced (symbol ',')) (spaced Idl.type))) (symbol '>'))) _ = _ :=
    read_types separatesTypes_comma readsFirst reads others
  have opened : grammar.read (thenSkip (spaced name) (spaced (symbol '<')))
      (written (.word word :: .mark .less ::
        (first.lexemes ++ (typesBehind (.mark .comma) types ++ .mark .greater :: others)))) =
      some (String.ofList word.chars, written (first.lexemes ++
        (typesBehind (.mark .comma) types ++ .mark .greater :: others))) := by
    simp [Mark.char]
  rw [genericType, read_map, read_seq, opened, Option.bind_some, list, formsOf_eq_map]
  split
  · simp [TypeTree.use]
  · rfl

/-- A union is read when all its alternatives are sound. -/
theorem read_unionType {second : TypeTree} (readsSecond : ReadsType second) :
    grammar.read unionType (written (.mark .openParenthesis ::
        (first.lexemes ++ (.keyword .or :: (second.lexemes ++
          (typesBehind (.keyword .or) types ++ .mark .closeParenthesis :: others)))))) =
      if first.sound && (second.sound && typesSound types) then
        some (.union (first.form :: second.form :: formsOf types), gap others)
      else none := by
  have list : grammar.read (.seq (spaced Idl.type)
      (thenSkip (.many (skipThen (spaced (keyword .or)) (spaced Idl.type))) (symbol ')'))) _ = _ :=
    read_types separatesTypes_or readsSecond reads others
  have behind : grammar.read (.seq (skipThen (spaced (keyword .or)) (spaced Idl.type))
      (thenSkip (.many (skipThen (spaced (keyword .or)) (spaced Idl.type))) (symbol ')')))
        (written (.keyword .or :: (second.lexemes ++
          (typesBehind (.keyword .or) types ++ .mark .closeParenthesis :: others)))) =
      if second.sound && typesSound types then
        some ((second.use, types.map TypeTree.use), gap others)
      else none := by
    rw [← list]
    simp [read_seq]
  rw [unionType, read_map, read_skipThen, read_spaced, read_symbol, scan_symbol_mark,
    if_pos (show Mark.openParenthesis.char = '(' from rfl), Option.map_some, Option.bind_some,
    afterBlank_gap, read_map]
  by_cases isSound : first.sound = true
  · have found := @readsFirst.read_of_sound isSound (.keyword .or :: (second.lexemes ++
      (typesBehind (.keyword .or) types ++ .mark .closeParenthesis :: others))) (by simp)
    rw [read_seq, read_spaced, found, Option.map_some, Option.bind_some, afterBlank_gap, behind,
      isSound, Bool.true_and, formsOf_eq_map]
    split
    · simp [TypeTree.use]
    · rfl
  · have stuck : TypeStuck (written (first.lexemes ++ (.keyword .or :: (second.lexemes ++
        (typesBehind (.keyword .or) types ++ .mark .closeParenthesis :: others))))) :=
      readsFirst.stuck_of_unsound (eq_false_of_ne_true isSound)
    rw [if_neg (by simp [isSound]), stuck.seq_none]
    · rfl
    · intro mark rest isLeft
      simp [read_seq]

/-- Without its arguments the name of a generic type is a type of its own. -/
theorem read_type_generic_unsound {word : Word}
    (notPrimitive : primitiveWords.contains word.chars = false)
    (unsound : (first.sound && typesSound types) = false) :
    ∃ use, grammar.read Idl.type (written (.word word :: .mark .less ::
        (first.lexemes ++ (typesBehind (.mark .comma) types ++ .mark .greater :: others)))) =
      some (use, gap (.mark .less ::
        (first.lexemes ++ (typesBehind (.mark .comma) types ++ .mark .greater :: others)))) := by
  have noGeneric := read_genericType readsFirst reads others word
  rw [if_neg (by simp [unsound])] at noGeneric
  have noBracket : grammar.scan (.symbol '[') (written (.word word :: .mark .less ::
      (first.lexemes ++ (typesBehind (.mark .comma) types ++ .mark .greater :: others)))) = none :=
    scan_symbol_word _ (by decide) word
  have noQuestion : grammar.scan (.symbol '?') (written (.mark .less ::
      (first.lexemes ++ (typesBehind (.mark .comma) types ++ .mark .greater :: others)))) =
        none := by
    simp [Mark.char]
  have found : grammar.read typeBody (written (.word word :: .mark .less ::
      (first.lexemes ++ (typesBehind (.mark .comma) types ++ .mark .greater :: others)))) =
      some (.named (String.ofList word.chars), gap (.mark .less ::
        (first.lexemes ++ (typesBehind (.mark .comma) types ++ .mark .greater :: others)))) := by
    simp (disch := decide) [typeBody, firstOf, read_choice, unionType, noGeneric, primitiveType,
      namedType, scan_primitive_word _ notPrimitive]
  rw [read_type_of_body noBracket found, read_nullable_none noQuestion]
  exact ⟨_, rfl⟩

/-- A generic type is read when all its arguments are sound. -/
theorem readsType_generic (name : Identifier) : ReadsType (.generic name first types) := by
  have arguments (others : List Lexeme) := read_genericType readsFirst reads others name.toWord
  refine readsType_of_body rfl ?_ ?_
  · intro isSound others _
    have found := arguments others
    have parts : (first.sound && typesSound types) = true := by
      simpa [TypeTree.sound] using isSound
    rw [if_pos parts] at found
    simp (disch := decide) [TypeTree.lexemes, typeBody, firstOf, read_choice, unionType, found,
      TypeTree.form]
  · intro unsound others
    obtain ⟨use, found⟩ := read_type_generic_unsound readsFirst reads others name.not_primitive
      (by simpa [TypeTree.sound] using unsound)
    simp only [TypeTree.lexemes, List.cons_append, List.append_assoc, List.nil_append]
    exact .inr ⟨use, .less, _, rfl, found⟩

/-- A union is read when all its alternatives are sound. -/
theorem readsType_union {second : TypeTree} (readsSecond : ReadsType second) :
    ReadsType (.union first second types) := by
  have alternatives (others : List Lexeme) := read_unionType readsFirst reads others readsSecond
  refine readsType_of_body rfl ?_ ?_
  · intro isSound others _
    have found := alternatives others
    rw [if_pos (by simpa [TypeTree.sound, Bool.and_assoc] using isSound)] at found
    simp (disch := decide) [TypeTree.lexemes, typeBody, firstOf, read_choice, found,
      TypeTree.form]
  · intro unsound others
    have missing := alternatives others
    rw [if_neg (by simpa [TypeTree.sound, Bool.and_assoc] using unsound)] at missing
    have noBracket : grammar.scan (.symbol '[')
        (written ((TypeTree.union first second types).lexemes ++ others)) = none :=
      scan_symbol_type others (by decide) (by decide) _
    refine .inl (read_type_of_body_none (read_extAttrSection_none noBracket) ?_)
    simp [TypeTree.lexemes, typeBody, firstOf, read_choice, missing, genericType, primitiveType,
      namedType, read_seq]

end Compound

/-- Every type is read as its tree, by recursion over its parts. -/
theorem readsType : (type : TypeTree) → ReadsType type
  | .named name => by
    refine readsType_of_body rfl ?_ nofun
    intro _ others follows
    exact read_typeBody_word name.not_primitive (scan_less_none follows)
  | .primitive type => by
    refine readsType_of_body rfl ?_ nofun
    intro _ others follows
    exact read_typeBody_primitive type follows
  | .generic name first types =>
    readsType_generic (readsType first) (fun type _ => readsType type) name
  | .union first second types =>
    readsType_union (readsType first) (fun type _ => readsType type) (readsType second)
  | .nullable inner => readsType_nullable (readsType inner)

/-- A sound type is read as its tree in front of everything that does not continue it. -/
@[simp] theorem read_type {type : TypeTree} (isSound : type.sound = true) {others : List Lexeme}
    (follows : followsType others = true) :
    grammar.read Idl.type (written (type.lexemes ++ others)) = some (type.use, gap others) :=
  (readsType type).read_of_sound isSound (by rw [follows, Bool.or_true])

/-- The reading of an unsound type leaves one of its marks, if it finds anything. -/
theorem typeStuck {type : TypeTree} (unsound : type.sound = false) (others : List Lexeme) :
    TypeStuck (written (type.lexemes ++ others)) := (readsType type).stuck_of_unsound unsound

/-! ### Beginnings of unsound types -/

/-- What may stand behind the first word of a type that has more lexemes. -/
inductive ContinuesType : Lexeme → Prop where
  | left {mark : Mark} (isLeft : mark.isLeft = true) : ContinuesType (.mark mark)
  | word (content : Word) : ContinuesType (.word content)

/-- A union or a word that a type continues behind. -/
inductive BeginsCompound : List Lexeme → Prop where
  | union (first second : TypeTree) (others : List Lexeme) :
    BeginsCompound (.mark .openParenthesis ::
      (first.lexemes ++ (.keyword .or :: (second.lexemes ++ others))))
  | word (content : Word) {next : Lexeme} (continues : ContinuesType next)
    (others : List Lexeme) : BeginsCompound (.word content :: next :: others)

/-- A generic type begins with a word that the text goes on behind. -/
theorem beginsCompound_generic (name : Identifier) (first : TypeTree) (types : List TypeTree)
    (others : List Lexeme) :
    BeginsCompound ((TypeTree.generic name first types).lexemes ++ others) := by
  rw [TypeTree.lexemes]
  exact .word _ (.left rfl) _

/-- A union begins with a parenthesis around two types. -/
theorem beginsCompound_union (first second : TypeTree) (types : List TypeTree)
    (others : List Lexeme) :
    BeginsCompound ((TypeTree.union first second types).lexemes ++ others) := by
  simp only [TypeTree.lexemes, List.cons_append, List.append_assoc]
  exact .union first second _

/-- A type that the text goes on behind begins like a compound one. -/
theorem beginsCompound_of_continues (type : TypeTree) {next : Lexeme}
    (continues : ContinuesType next) (others : List Lexeme) :
    BeginsCompound (type.lexemes ++ next :: others) := by
  match type with
  | .named name =>
    rw [TypeTree.lexemes]
    exact .word _ continues others
  | .primitive type =>
    obtain ⟨word, rest, same⟩ := type.words_eq
    rw [TypeTree.lexemes, PrimitiveType.lexemes, same]
    cases rest with
    | nil => exact .word word continues others
    | cons second rest => exact .word word (.word second) _
  | .generic name first types => exact beginsCompound_generic name first types _
  | .union first second types => exact beginsCompound_union first second types _
  | .nullable inner =>
    rw [TypeTree.lexemes, List.append_assoc]
    exact beginsCompound_of_continues inner (.left rfl) _

/-- An unsound type has more than one lexeme, whatever stands behind it. -/
theorem beginsCompound_of_unsound {type : TypeTree} (unsound : type.sound = false)
    (others : List Lexeme) : BeginsCompound (type.lexemes ++ others) := by
  cases type with
  | named | primitive => contradiction
  | generic name first types => exact beginsCompound_generic name first types others
  | union first second types => exact beginsCompound_union first second types others
  | nullable inner =>
    rw [TypeTree.lexemes, List.append_assoc]
    exact beginsCompound_of_continues inner (.left rfl) others

section Continues

variable {mark : Char} (notPart : isTokenPart mark = false) (notQuestion : '?' ≠ mark)
  (notLess : '<' ≠ mark) {next : Lexeme} (continues : ContinuesType next) (others : List Lexeme)

include notPart notQuestion notLess continues

/-- What goes on behind a word does not start with any other mark. -/
theorem head_continues : (written (next :: others)).head? ≠ some mark := by
  cases continues with
  | @left kind isLeft =>
    cases kind <;> first | contradiction | simp [written, Lexeme.chars, Mark.char, notQuestion,
      notLess]
  | word content =>
    obtain ⟨first, rest, same, part⟩ := content.first_isTokenPart
    simp only [written, Lexeme.chars, same, List.cons_append, List.head?_cons, ne_eq,
      Option.some.injEq]
    rintro rfl
    rw [part] at notPart
    contradiction

theorem scan_symbol_continues : grammar.scan (.symbol mark) (written (next :: others)) = none :=
  scan_symbol_of_head (head_continues notPart notQuestion notLess continues others)

end Continues

/-! ### Words as types -/

theorem Keyword.not_primitive (keyword : Keyword) :
    primitiveWords.contains keyword.word.chars = false := by
  cases keyword <;> decide

/-- A keyword that neither arguments nor a question mark follow is read as a type. -/
theorem read_type_keyword (keyword : Keyword) {others : List Lexeme}
    (noLess : grammar.scan (.symbol '<') (written others) = none)
    (noQuestion : grammar.scan (.symbol '?') (written others) = none) :
    ∃ use, grammar.read Idl.type (written (.keyword keyword :: others)) =
      some (use, gap others) := by
  have noBracket : grammar.scan (.symbol '[') (written (.keyword keyword :: others)) = none :=
    scan_symbol_word others (by decide) keyword.word
  rw [read_type_of_body noBracket (read_typeBody_word keyword.not_primitive noLess),
    read_nullable_none noQuestion]
  exact ⟨_, rfl⟩

/-- In front of a type, a keyword is read as the name of another type. -/
theorem read_type_keyword_type (keyword : Keyword) (type : TypeTree) (others : List Lexeme) :
    ∃ use, grammar.read Idl.type (written (.keyword keyword :: (type.lexemes ++ others))) =
      some (use, gap (type.lexemes ++ others)) :=
  read_type_keyword keyword (scan_symbol_type others (by decide) (by decide) type)
    (scan_symbol_type others (by decide) (by decide) type)

/-! ### Marks in front of a type -/

section Marks

variable {mark : Mark} (notParenthesis : mark ≠ .openParenthesis) {others : List Lexeme}

include notParenthesis

/-- No body of a type starts with a mark that is no parenthesis. -/
theorem read_typeBody_mark : grammar.read typeBody (written (.mark mark :: others)) = none := by
  have different : mark.char ≠ '(' := by
    revert notParenthesis
    cases mark <;> decide
  simp [typeBody, firstOf, read_choice, read_seq, unionType, genericType, primitiveType, namedType,
    different]

/-- No type begins with a mark that opens neither a union nor a complete section. -/
theorem read_type_mark
    (missing : grammar.read extAttrSection (written (.mark mark :: others)) = none) :
    grammar.read Idl.type (written (.mark mark :: others)) = none :=
  read_type_of_body_none missing (read_typeBody_mark notParenthesis)

end Marks

end InterfaceAudit.Idl
