import InterfaceAudit.Proofs.Idl.Written.Section

/-!
Members of a written body, and what an operation reads of them.
An operation takes any word as its type, so it is the alternative that the other members have to be
kept from when they are not sound.
-/

namespace InterfaceAudit.Idl

open Grammar
open Grammar.Expression (skipThen thenSkip firstOf present)

/-- The words of the special operations. -/
inductive Special where
  | getter | setter | deleter | stringifier
  deriving DecidableEq, Repr

def Special.keyword : Special → Keyword
  | .getter => .getter
  | .setter => .setter
  | .deleter => .deleter
  | .stringifier => .stringifier

/-- A member without its extended attributes. -/
inductive MemberCore where
  | constructor (parameters : List ArgumentTree)
  | constant (type : TypeTree) (name : Identifier) (value : ConstantTree)
  | iterable (isAsync : Bool) (first : TypeTree) (second : Option TypeTree)
  | maplike (isReadonly : Bool) (key value : TypeTree)
  | setlike (isReadonly : Bool) (type : TypeTree)
  | attribute (isStatic inherit isReadonly : Bool) (type : TypeTree) (name : Identifier)
  | operation (isStatic : Bool) (special : Option Special) (type : TypeTree)
    (name : Option Identifier) (parameters : List ArgumentTree)

structure MemberTree where
  extAttrs : List ExtAttrTree
  core : MemberCore

/-! ### Lexemes -/

/-- A word that is there or not. -/
def flagged (isPresent : Bool) (word : Keyword) : List Keyword := if isPresent then [word] else []

def keywordLexemes (words : List Keyword) : List Lexeme := words.map .keyword

/-- The types of a collection stand between angle brackets. -/
def collectionLexemes (word : Keyword) (first : TypeTree) (types : List TypeTree) : List Lexeme :=
  .keyword word :: .mark .less ::
    (first.lexemes ++ (typesBehind (.mark .comma) types ++ [.mark .greater, .mark .semicolon]))

def attributeWords (isStatic inherit isReadonly : Bool) : List Keyword :=
  flagged isStatic .static ++ flagged inherit .inherit ++ flagged isReadonly .readonly

def operationWords (isStatic : Bool) (special : Option Special) : List Keyword :=
  flagged isStatic .static ++ special.toList.map Special.keyword

def MemberCore.lexemes : MemberCore → List Lexeme
  | .constructor parameters =>
    .keyword .constructor :: (parameterLexemes parameters ++ [.mark .semicolon])
  | .constant type name value =>
    .keyword .const :: (type.lexemes ++
      [.name name, .mark .equals, value.lexeme, .mark .semicolon])
  | .iterable isAsync first second =>
    keywordLexemes (flagged isAsync .async) ++ collectionLexemes .iterable first second.toList
  | .maplike isReadonly key value =>
    keywordLexemes (flagged isReadonly .readonly) ++ collectionLexemes .maplike key [value]
  | .setlike isReadonly type =>
    keywordLexemes (flagged isReadonly .readonly) ++ collectionLexemes .setlike type []
  | .attribute isStatic inherit isReadonly type name =>
    keywordLexemes (attributeWords isStatic inherit isReadonly) ++
      (.keyword .attribute :: (type.lexemes ++ [.name name, .mark .semicolon]))
  | .operation isStatic special type name parameters =>
    keywordLexemes (operationWords isStatic special) ++
      (type.lexemes ++ (name.toList.map .name ++
        (parameterLexemes parameters ++ [.mark .semicolon])))

def MemberTree.lexemes (member : MemberTree) : List Lexeme :=
  sectionLexemes member.extAttrs ++ member.core.lexemes

/-! ### Soundness and declarations -/

def MemberCore.sound : MemberCore → Bool
  | .constructor parameters => argumentsSound parameters
  | .constant type _ _ => type.sound
  | .iterable _ first second => first.sound && typesSound second.toList
  | .maplike _ key value => key.sound && typesSound [value]
  | .setlike _ type => type.sound && typesSound []
  | .attribute _ _ _ type _ => type.sound
  | .operation _ _ type _ parameters => type.sound && argumentsSound parameters

def MemberTree.sound (member : MemberTree) : Bool :=
  extAttrsSound member.extAttrs && member.core.sound

/-- A special operation is known by its word. -/
def Special.text (special : Special) : String := String.ofList special.keyword.spelling

def MemberCore.declared : MemberCore → Member
  | .constructor parameters =>
    .constructor { parameters := parameters.map ArgumentTree.declared }
  | .constant type name value =>
    .constant
      { name := String.ofList name.chars
        type := type.text
        value := String.ofList value.lexeme.chars }
  | .iterable isAsync first second =>
    .collection
      { kind := if isAsync then .asyncIterable else .iterable
        types := (first :: second.toList).map TypeTree.text }
  | .maplike readonly key value =>
    .collection { kind := .maplike, types := [key.text, value.text], readonly }
  | .setlike readonly type => .collection { kind := .setlike, types := [type.text], readonly }
  | .attribute isStatic inherit readonly type name =>
    .attribute { name := String.ofList name.chars, type := type.text, readonly, isStatic, inherit }
  | .operation isStatic special type name parameters =>
    .operation
      { name := name.map fun name => String.ofList name.chars
        returnType := type.text
        parameters := parameters.map ArgumentTree.declared
        isStatic
        special := special.map Special.text }

def MemberTree.declared (member : MemberTree) : Member :=
  member.core.declared.withExtAttrs (member.extAttrs.map ExtAttrTree.text)

/-! ### Qualifiers -/

def Keyword.isQualifier : Keyword → Bool
  | .static | .stringifier | .readonly | .inherit | .getter | .setter | .deleter => true
  | _ => false

/-- Words as they are read. -/
def spellings (words : List Keyword) : List String :=
  words.map fun word => String.ofList word.spelling

/-- Trimming a qualifier drops the space behind it and nothing else. -/
theorem trim_spelling (keyword : Keyword) :
    Text.trim keyword.spelling = keyword.spelling ∧
      Text.trim (keyword.spelling ++ [' ']) = keyword.spelling := by
  cases keyword <;> decide

section Qualifiers

variable {others : List Lexeme}

/-- A qualifier is the trimmed source of its word and the blank behind it. -/
theorem read_qualifierWord_eq (text : List Char) :
    grammar.read qualifier text =
      ((grammar.read (firstOf (keyword .static) [keyword .stringifier, keyword .readonly,
        keyword .inherit, keyword .getter, keyword .setter, keyword .deleter]) text).map
          fun reading => (String.ofList (Text.trim (consumed text (afterBlank reading.2))),
            afterBlank reading.2)) := by
  rw [qualifier, read_map, read_source, read_spaced]
  simp [Option.map_map, Function.comp_def]

/-- A written qualifier is read as its spelling. -/
theorem read_qualifier {word : Keyword} (isQualifier : word.isQualifier = true) :
    grammar.read qualifier (written (.keyword word :: others)) =
      some (String.ofList word.spelling, written others) := by
  have found : grammar.read (firstOf (keyword .static) [keyword .stringifier, keyword .readonly,
      keyword .inherit, keyword .getter, keyword .setter, keyword .deleter])
        (written (.keyword word :: others)) = some (word.spelling, gap others) := by
    cases word <;> first | contradiction | simp [firstOf, read_choice]
  have trimmed : Text.trim (consumed (written (.keyword word :: others)) (written others)) =
      word.spelling := by
    have taken := @consumed_written [.keyword word] (List.cons_ne_nil _ _) others
    rw [List.singleton_append, written_singleton] at taken
    rw [taken]
    split
    · exact (trim_spelling word).1
    · exact (trim_spelling word).2
  rw [read_qualifierWord_eq, found, Option.map_some, afterBlank_gap, trimmed]

/-- Where no qualifying keyword stands, there is no qualifier. -/
theorem read_qualifier_none {text : List Char}
    (free : ∀ word : Keyword, word.isQualifier = true → grammar.scan (.keyword word) text = none) :
    grammar.read qualifier text = none := by
  rw [read_qualifierWord_eq]
  simp [firstOf, read_choice, free .static rfl, free .stringifier rfl, free .readonly rfl,
    free .inherit rfl, free .getter rfl, free .setter rfl, free .deleter rfl]

/-- Behind qualifiers stands a type or the word for an attribute. -/
def EndsQualifiers (others : List Lexeme) : Prop :=
  ∀ word : Keyword, word ≠ .attribute → grammar.scan (.keyword word) (written others) = none

theorem endsQualifiers_type (type : TypeTree) (others : List Lexeme) :
    EndsQualifiers (type.lexemes ++ others) :=
  fun word _ => scan_keyword_type others word type

/-- The word for an attribute ends the qualifiers in front of it. -/
theorem endsQualifiers_attribute (others : List Lexeme) :
    EndsQualifiers (.keyword .attribute :: others) := by
  intro word different
  simp [Ne.symm different]

/-- Where the qualifiers end, none is read. -/
theorem read_qualifier_ends (ends : EndsQualifiers others) :
    grammar.read qualifier (written others) = none := by
  refine read_qualifier_none fun word isQualifier => ends word ?_
  rintro rfl
  contradiction

/-- Any other keyword is no qualifier. -/
theorem read_qualifier_keyword {word : Keyword} (notQualifier : word.isQualifier = false) :
    grammar.read qualifier (written (.keyword word :: others)) = none := by
  refine read_qualifier_none fun other isQualifier => ?_
  have different : word ≠ other := by
    rintro rfl
    rw [isQualifier] at notQualifier
    contradiction
  simp [different]

variable {words : List Keyword} (qualify : ∀ word ∈ words, word.isQualifier = true)

include qualify

/-- All qualifiers in a row are read, up to the first word that is none. -/
theorem readMany_qualifier (stop : grammar.read qualifier (written others) = none) :
    readMany (grammar.read qualifier) (written (keywordLexemes words ++ others)) =
      (spellings words, written others) := by
  induction words with
  | nil => exact readMany_of_none stop
  | cons word words inductionHypothesis =>
    rw [List.forall_mem_cons] at qualify
    have found := @read_qualifier (keywordLexemes words ++ others) word qualify.1
    have shorter := @length_written_lt [.keyword word] (List.cons_ne_nil _ _)
      (keywordLexemes words ++ others)
    change readMany _ (written (.keyword word :: (keywordLexemes words ++ others))) = _
    rw [readMany_of_some found shorter, inductionHypothesis qualify.2]
    rfl

/-- Other keywords are not found in front of an attribute or an operation. -/
theorem scan_keyword_qualified (ends : EndsQualifiers others) {word : Keyword}
    (notQualifier : word.isQualifier = false)
    (notAttribute : word ≠ .attribute) :
    grammar.scan (.keyword word) (written (keywordLexemes words ++ others)) = none := by
  cases words with
  | nil => exact ends word notAttribute
  | cons first rest =>
    rw [List.forall_mem_cons] at qualify
    have different : first ≠ word := by
      rintro rfl
      rw [qualify.1] at notQualifier
      contradiction
    simp [keywordLexemes, different]

end Qualifiers

/-! ### Flags -/

section Flags

variable {word : Keyword}

/-- A word that is only looked for may be missing. -/
theorem read_flag_none {text : List Char}
    (missing : grammar.scan (.keyword word) text = none) :
    grammar.read (present (spaced (keyword word))) text = some (false, text) := by
  have absent : grammar.read (spaced (keyword word)) text = none := by simp [missing]
  rw [read_present, read_optional_of_none _ absent]
  rfl

/-- A word that is looked for is taken when it is there. -/
theorem read_flag_some (others : List Lexeme) :
    grammar.read (present (spaced (keyword word))) (written (.keyword word :: others)) =
      some (true, written others) := by
  have found : grammar.read (spaced (keyword word)) (written (.keyword word :: others)) =
      some (word.spelling, written others) := by simp
  rw [read_present, read_optional_of_some _ found]
  rfl

/-- A flag is read as it was written. -/
theorem read_flag (isPresent : Bool) {others : List Lexeme}
    (missing : grammar.scan (.keyword word) (written others) = none) :
    grammar.read (present (spaced (keyword word)))
        (written (keywordLexemes (flagged isPresent word) ++ others)) =
      some (isPresent, written others) := by
  cases isPresent with
  | false => exact read_flag_none missing
  | true => exact read_flag_some others

end Flags

/-! ### Alternatives -/

def plainMember : Phrase Member :=
  firstOf constructorMember [constantMember, iterableMember, maplikeMember, setlikeMember,
    attributeMember, operationMember]

def memberAlternatives : Phrase (Option Member) := .choice (.map some plainMember) bareStringifier

theorem member_eq : member =
    .map (fun (extAttrs, member) => member.map (Member.withExtAttrs extAttrs))
      (attributed memberAlternatives) := rfl

/-- The alternatives that begin with a word of their own. -/
theorem read_plainMember_of_earlier {text : List Char}
    (noConstructor : grammar.read constructorMember text = none)
    (noConstant : grammar.read constantMember text = none)
    (noIterable : grammar.read iterableMember text = none)
    (noMaplike : grammar.read maplikeMember text = none)
    (noSetlike : grammar.read setlikeMember text = none) :
    grammar.read plainMember text =
      (grammar.read attributeMember text).or (grammar.read operationMember text) := by
  simp [plainMember, firstOf, read_choice, noConstructor, noConstant, noIterable, noMaplike,
    noSetlike]

section Qualified

variable {words : List Keyword} {others : List Lexeme}
  (qualify : ∀ word ∈ words, word.isQualifier = true) (ends : EndsQualifiers others)

include qualify ends

/-- A qualifier may be taken as the flag of a collection, but no collection stands behind it. -/
theorem read_readonly_qualified {word : Keyword} (notQualifier : word.isQualifier = false)
    (notAttribute : word ≠ .attribute) :
    ∃ isPresent rest, grammar.read (present (spaced (keyword .readonly)))
      (written (keywordLexemes words ++ others)) = some (isPresent, rest) ∧
        grammar.scan (.keyword word) rest = none := by
  have missing := scan_keyword_qualified qualify ends notQualifier notAttribute
  by_cases isFlag : words.head? = some .readonly
  · obtain ⟨rest, rfl⟩ := List.head?_eq_some_iff.mp isFlag
    rw [List.forall_mem_cons] at qualify
    exact ⟨true, _, read_flag_some (keywordLexemes rest ++ others),
      scan_keyword_qualified qualify.2 ends notQualifier notAttribute⟩
  · refine ⟨false, _, read_flag_none ?_, missing⟩
    cases words with
    | nil => exact ends .readonly (by decide)
    | cons first rest =>
      have different : first ≠ .readonly := by simpa using isFlag
      simp [keywordLexemes, different]

/-- Behind a qualifier only attributes and operations are left. -/
theorem read_plainMember_qualified :
    grammar.read plainMember (written (keywordLexemes words ++ others)) =
      (grammar.read attributeMember (written (keywordLexemes words ++ others))).or
        (grammar.read operationMember (written (keywordLexemes words ++ others))) := by
  have missing {word : Keyword} (notQualifier : word.isQualifier = false)
      (notAttribute : word ≠ .attribute) :
      grammar.scan (.keyword word) (written (keywordLexemes words ++ others)) = none :=
    scan_keyword_qualified qualify ends notQualifier notAttribute
  apply read_plainMember_of_earlier
  · have noWord := @missing .constructor rfl (by decide)
    simp [constructorMember, noWord]
  · have noWord := @missing .const rfl (by decide)
    simp [constantMember, noWord]
  · have noFlag := read_flag_none (@missing .async rfl (by decide))
    have noWord := @missing .iterable rfl (by decide)
    rw [iterableMember, read_map, read_seq, noFlag]
    simp [noWord]
  · obtain ⟨isPresent, rest, found, noWord⟩ :=
      @read_readonly_qualified _ _ qualify ends .maplike rfl (by decide)
    rw [maplikeMember, read_map, read_seq, found]
    simp [noWord]
  · obtain ⟨isPresent, rest, found, noWord⟩ :=
      @read_readonly_qualified _ _ qualify ends .setlike rfl (by decide)
    rw [setlikeMember, read_map, read_seq, found]
    simp [noWord]

end Qualified

/-! ### Operations -/

/-- An operation behind its qualifiers. -/
def operationTail : Phrase (TypeUse × Option String × List Argument) :=
  .seq (spaced type) (.seq (spaced (.optional name)) (thenSkip (spaced parameters) semicolon))

/-- An operation is its qualifiers and what follows them. -/
theorem read_operationMember {text rest : List Char} {words : List String}
    (found : readMany (grammar.read qualifier) text = (words, rest)) :
    grammar.read operationMember text =
      (grammar.read operationTail rest).map fun reading =>
        (.operation
          { name := reading.1.2.1
            returnType := reading.1.1.text
            parameters := reading.1.2.2
            isStatic := words.contains "static"
            special := words.find? (· != "static") }, reading.2) := by
  have same : operationMember = .map (fun parts =>
      .operation
        { name := parts.2.2.1
          returnType := parts.2.1.text
          parameters := parts.2.2.2
          isStatic := parts.1.contains "static"
          special := parts.1.find? (· != "static") })
      (.seq (.many qualifier) operationTail) := rfl
  rw [same, read_map, read_seq, read_many, found, Option.bind_some, Option.map_map]
  rfl

/-- What stands between the type of an operation and its end. -/
def signature : Phrase (Option String × List Argument) :=
  .seq (spaced (.optional name)) (thenSkip (spaced parameters) semicolon)

theorem operationTail_eq : operationTail = .seq (spaced type) signature := rfl

section Signatures

variable (others : List Lexeme)

/-- No signature starts with a mark that an unsound type leaves behind. -/
theorem read_signature_left {mark : Mark} (isLeft : mark.isLeft = true) :
    grammar.read signature (written (.mark mark :: others)) = none := by
  have noParenthesis : mark.char ≠ '(' := by
    revert isLeft
    cases mark <;> decide
  simp [signature, read_seq, read_optional, parameters, noParenthesis]

/-- Unsound types begin with what is no signature. -/
theorem read_signature_compound {lexemes : List Lexeme} (begins : BeginsCompound lexemes) :
    grammar.read signature (written lexemes) = none := by
  cases begins with
  | union first second rest =>
    simp [signature, read_seq, read_optional, read_parameters_union]
  | @word content next continues rest =>
    have noParenthesis : grammar.scan (.symbol '(') (written (next :: rest)) = none :=
      scan_symbol_continues (by decide) (by decide) (by decide) continues rest
    simp [signature, read_seq, read_optional, parameters, noParenthesis]

/-- A signature is read when its arguments are sound, with a name or without one. -/
theorem read_signature (name : Option Identifier) (arguments : List ArgumentTree) :
    grammar.read signature (written (name.toList.map .name ++
        (parameterLexemes arguments ++ .mark .semicolon :: others))) =
      if argumentsSound arguments then
        some ((name.map fun name => String.ofList name.chars, arguments.map ArgumentTree.declared),
          gap others)
      else none := by
  have closed : grammar.read (thenSkip (spaced parameters) semicolon)
      (written (parameterLexemes arguments ++ .mark .semicolon :: others)) =
        if argumentsSound arguments then
          some (arguments.map ArgumentTree.declared, gap others)
        else none := by
    rw [read_thenSkip, read_spaced, read_parameters]
    split <;> simp [semicolon, Mark.char]
  have noName : grammar.scan .name
      (written (parameterLexemes arguments ++ .mark .semicolon :: others)) = none := by
    cases arguments <;> simp [parameterLexemes]
  cases name with
  | none =>
    simp only [signature, read_seq, read_spaced, read_optional, read_name, noName, Option.map_none,
      Option.map_some, Option.bind_some, Option.toList_none, List.map_nil, List.nil_append,
      afterBlank_written, closed]
    split <;> rfl
  | some name =>
    simp only [signature, read_seq, read_spaced, read_optional, read_name, scan_name,
      Option.map_some, Option.bind_some, Option.toList_some, List.map_cons, List.map_nil,
      List.cons_append, List.nil_append, afterBlank_gap, closed]
    split <;> rfl

end Signatures

section Tails

variable (others : List Lexeme)

/-- An operation whose type is stuck has no signature behind it. -/
theorem read_operationTail_unsound {type : TypeTree} (unsound : type.sound = false) :
    grammar.read operationTail (written (type.lexemes ++ others)) = none :=
  (typeStuck unsound others).seq_none fun _ rest isLeft => read_signature_left rest isLeft

/-- The word of an alternative is read as a type, but no signature stands behind it. -/
theorem read_operationTail_keyword (word : Keyword) {type : TypeTree}
    (unsound : type.sound = false) :
    grammar.read operationTail (written (.keyword word :: (type.lexemes ++ others))) = none := by
  obtain ⟨use, found⟩ := read_type_keyword_type word type others
  have missing := read_signature_compound (beginsCompound_of_unsound unsound others)
  rw [operationTail_eq, read_seq, read_spaced, found, Option.map_some, Option.bind_some,
    afterBlank_gap, missing, Option.map_none]

/-- A keyword in front of unsound parameters is a type without a signature. -/
theorem read_operationTail_parameters (word : Keyword) {arguments : List ArgumentTree}
    (unsound : argumentsSound arguments = false) :
    grammar.read operationTail
      (written (.keyword word :: (parameterLexemes arguments ++ .mark .semicolon :: others))) =
        none := by
  have opened (mark : Char) (different : '(' ≠ mark) : grammar.scan (.symbol mark)
      (written (parameterLexemes arguments ++ .mark .semicolon :: others)) = none := by
    cases arguments <;> simp [parameterLexemes, Mark.char, different]
  obtain ⟨use, found⟩ := read_type_keyword word (opened '<' (by decide)) (opened '?' (by decide))
  have missing := read_signature others none arguments
  rw [if_neg (by simp [unsound]), Option.toList_none, List.map_nil, List.nil_append] at missing
  rw [operationTail_eq, read_seq, read_spaced, found, Option.map_some, Option.bind_some,
    afterBlank_gap, missing, Option.map_none]

/-- A collection that is not sound is not read as an operation either. -/
theorem read_operationTail_collection (word : Keyword) {first : TypeTree} {types : List TypeTree}
    (unsound : (first.sound && typesSound types) = false) :
    grammar.read operationTail (written (collectionLexemes word first types ++ others)) = none := by
  obtain ⟨use, found⟩ := @read_type_generic_unsound first types (readsType first)
    (fun type _ => readsType type) (.mark .semicolon :: others) word.word word.not_primitive unsound
  rw [collectionLexemes]
  simp only [List.cons_append, List.append_assoc, List.nil_append]
  rw [operationTail_eq, read_seq, read_spaced, found, Option.map_some, Option.bind_some,
    afterBlank_gap, read_signature_left _ rfl, Option.map_none]

/-- The word in front of a collection is a type, but no signature follows it. -/
theorem read_operationTail_async (word other : Keyword) (first : TypeTree)
    (types : List TypeTree) :
    grammar.read operationTail
      (written (.keyword word :: (collectionLexemes other first types ++ others))) = none := by
  have noMark (mark : Char) (notPart : isTokenPart mark = false) : grammar.scan (.symbol mark)
      (written (collectionLexemes other first types ++ others)) = none :=
    scan_symbol_word _ notPart other.word
  obtain ⟨use, found⟩ := read_type_keyword word (noMark '<' (by decide)) (noMark '?' (by decide))
  have begins : BeginsCompound (collectionLexemes other first types ++ others) :=
    .word other.word (.left rfl) _
  rw [operationTail_eq, read_seq, read_spaced, found, Option.map_some, Option.bind_some,
    afterBlank_gap, read_signature_compound begins, Option.map_none]

/-- A name or a parenthesis may follow the type of an operation. -/
theorem followsType_signature (name : Option Identifier) (arguments : List ArgumentTree) :
    followsType (name.toList.map .name ++
      (parameterLexemes arguments ++ .mark .semicolon :: others)) = true := by
  cases name with
  | none => cases arguments <;> rfl
  | some name => exact followsType_name name _

/-- An operation is read when its type and its parameters are sound. -/
theorem read_operationTail (type : TypeTree) (name : Option Identifier)
    (arguments : List ArgumentTree) :
    grammar.read operationTail (written (type.lexemes ++ (name.toList.map .name ++
        (parameterLexemes arguments ++ .mark .semicolon :: others)))) =
      if type.sound && argumentsSound arguments then
        some ((type.use, name.map fun name => String.ofList name.chars,
          arguments.map ArgumentTree.declared), gap others)
      else none := by
  by_cases isSound : type.sound = true
  · have found := read_type isSound (followsType_signature others name arguments)
    rw [operationTail_eq, read_seq, read_spaced, found, Option.map_some, Option.bind_some,
      afterBlank_gap, read_signature, isSound, Bool.true_and]
    split <;> rfl
  · rw [read_operationTail_unsound _ (eq_false_of_ne_true isSound), if_neg (by simp [isSound])]

end Tails

end InterfaceAudit.Idl
