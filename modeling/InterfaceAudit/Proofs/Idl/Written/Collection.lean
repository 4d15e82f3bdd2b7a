import InterfaceAudit.Proofs.Idl.Written.Operation

/-!
Constructors, constants and collections of a written body.
Each begins with a word of its own, which tells it from the other alternatives.
-/

namespace InterfaceAudit.Idl

open Grammar
open Grammar.Expression (skipThen thenSkip firstOf present)

variable (others : List Lexeme)

/-- Neither an attribute nor an operation begins with the word of another alternative, unless the
word is read as the type of an operation. -/
theorem read_unqualified {text : List Char} {words : List String} {word : Keyword}
    {lexemes : List Lexeme} (notAttribute : word ≠ .attribute)
    (found : readMany (grammar.read qualifier) text = (words, written (.keyword word :: lexemes)))
    (missing : grammar.read operationTail (written (.keyword word :: lexemes)) = none) :
    (grammar.read attributeMember text).or (grammar.read operationMember text) = none := by
  have noAttribute : grammar.read attributeMember text = none := by
    simp [attributeMember, read_seq, found, notAttribute]
  rw [noAttribute, read_operationMember found, missing]
  rfl

section Keywords

variable {word : Keyword} (lexemes : List Lexeme)

/-- A member that begins with another keyword is no constructor. -/
theorem read_constructorMember_keyword (different : word ≠ .constructor) :
    grammar.read constructorMember (written (.keyword word :: lexemes)) = none := by
  simp [constructorMember, different]

theorem read_constantMember_keyword (different : word ≠ .const) :
    grammar.read constantMember (written (.keyword word :: lexemes)) = none := by
  simp [constantMember, different]

/-- A member that begins with another keyword is no iterable declaration. -/
theorem read_iterableMember_keyword (notAsync : word ≠ .async) (different : word ≠ .iterable) :
    grammar.read iterableMember (written (.keyword word :: lexemes)) = none := by
  have noFlag : grammar.read (present (spaced (keyword .async)))
      (written (.keyword word :: lexemes)) = some (false, written (.keyword word :: lexemes)) :=
    read_flag_none (by simp [notAsync])
  rw [iterableMember, read_map, read_seq, noFlag]
  simp [different]

/-- Another keyword does not mark a collection as read-only. -/
theorem read_readonly_keyword (notReadonly : word ≠ .readonly) :
    grammar.read (present (spaced (keyword .readonly))) (written (.keyword word :: lexemes)) =
      some (false, written (.keyword word :: lexemes)) :=
  read_flag_none (by simp [notReadonly])

theorem read_maplikeMember_keyword (notReadonly : word ≠ .readonly)
    (different : word ≠ .maplike) :
    grammar.read maplikeMember (written (.keyword word :: lexemes)) = none := by
  rw [maplikeMember, read_map, read_seq, read_readonly_keyword lexemes notReadonly]
  simp [different]

theorem read_setlikeMember_keyword (notReadonly : word ≠ .readonly)
    (different : word ≠ .setlike) :
    grammar.read setlikeMember (written (.keyword word :: lexemes)) = none := by
  rw [setlikeMember, read_map, read_seq, read_readonly_keyword lexemes notReadonly]
  simp [different]

end Keywords

/-- A constructor is read by its own alternative, or by none. -/
theorem read_plainMember_constructor (arguments : List ArgumentTree) :
    grammar.read plainMember
        (written ((MemberCore.constructor arguments).lexemes ++ others)) =
      if (MemberCore.constructor arguments).sound then
        some ((MemberCore.constructor arguments).declared, gap others)
      else none := by
  simp only [MemberCore.lexemes, List.cons_append, List.append_assoc, List.nil_append]
  by_cases isSound : argumentsSound arguments = true
  · rw [if_pos (show (MemberCore.constructor arguments).sound = true from isSound)]
    simp [MemberCore.declared, plainMember, firstOf, read_choice, constructorMember, isSound,
      semicolon, Mark.char]
  · have unsound := eq_false_of_ne_true isSound
    have missing : grammar.read constructorMember (written (.keyword .constructor ::
        (parameterLexemes arguments ++ .mark .semicolon :: others))) = none := by
      simp [constructorMember, unsound]
    have noOther := read_unqualified (by decide)
      (readMany_of_none (@read_qualifier_keyword _ .constructor rfl))
      (read_operationTail_parameters others .constructor unsound)
    rw [read_plainMember_of_earlier missing (read_constantMember_keyword _ (by decide))
      (read_iterableMember_keyword _ (by decide) (by decide))
      (read_maplikeMember_keyword _ (by decide) (by decide))
      (read_setlikeMember_keyword _ (by decide) (by decide)), noOther,
      if_neg (show ¬(MemberCore.constructor arguments).sound = true from isSound)]

/-- A constant is read by its own alternative, or by none. -/
theorem read_plainMember_constant (type : TypeTree) (name : Identifier) (value : ConstantTree) :
    grammar.read plainMember
        (written ((MemberCore.constant type name value).lexemes ++ others)) =
      if (MemberCore.constant type name value).sound then
        some ((MemberCore.constant type name value).declared, gap others)
      else none := by
  simp only [MemberCore.lexemes, List.cons_append, List.append_assoc, List.nil_append]
  have noConstructor := @read_constructorMember_keyword .const
    (type.lexemes ++ .name name :: .mark .equals :: value.lexeme :: .mark .semicolon :: others)
    (by decide)
  by_cases isSound : type.sound = true
  · rw [if_pos (show (MemberCore.constant type name value).sound = true from isSound)]
    simp [MemberCore.declared, plainMember, firstOf, read_choice, noConstructor, constantMember,
      read_seq, isSound, semicolon, Mark.char, TypeTree.use]
  · have unsound := eq_false_of_ne_true isSound
    have noConstant : grammar.read constantMember (written (.keyword .const :: (type.lexemes ++
        .name name :: .mark .equals :: value.lexeme :: .mark .semicolon :: others))) = none := by
      have missing : grammar.read (.seq (spaced Idl.type) (.seq
          (thenSkip (spaced Idl.name) (spaced (symbol '=')))
          (thenSkip (spaced constantValue) semicolon))) (written (type.lexemes ++
            .name name :: .mark .equals :: value.lexeme :: .mark .semicolon :: others)) = none :=
        (typeStuck unsound _).seq_none fun mark rest _ => by simp [read_seq]
      simp [constantMember, missing]
    have noOther := read_unqualified (by decide)
      (readMany_of_none (@read_qualifier_keyword _ .const rfl))
      (read_operationTail_keyword (.name name :: .mark .equals :: value.lexeme ::
        .mark .semicolon :: others) .const unsound)
    rw [read_plainMember_of_earlier noConstructor noConstant
      (read_iterableMember_keyword _ (by decide) (by decide))
      (read_maplikeMember_keyword _ (by decide) (by decide))
      (read_setlikeMember_keyword _ (by decide) (by decide)), noOther,
      if_neg (show ¬(MemberCore.constant type name value).sound = true from isSound)]

/-! ### Collections -/

/-- The types of an iterable collection with what closes it. -/
def iterableTypes : Phrase (TypeUse × Option TypeUse) :=
  .seq (spaced type)
    (thenSkip (.optional (skipThen (spaced (symbol ',')) (spaced type)))
      (.seq (spaced (symbol '>')) (.seq (.optional (spaced parameters)) semicolon)))

def maplikeTypes : Phrase (TypeUse × TypeUse) :=
  .seq (thenSkip (spaced type) (spaced (symbol ',')))
    (thenSkip (spaced type) (.seq (spaced (symbol '>')) semicolon))

def setlikeTypes : Phrase TypeUse :=
  thenSkip (spaced type) (.seq (spaced (symbol '>')) semicolon)

/-- What a stuck type leaves behind neither goes on nor closes a list of types. -/
theorem Mark.char_of_isLeft {mark : Mark} (isLeft : mark.isLeft = true) :
    mark.char ≠ ',' ∧ mark.char ≠ '>' := by
  revert isLeft
  cases mark <;> decide

/-- Behind the first type of an iterable collection a comma and a second one may stand. -/
theorem read_secondType (second : Option TypeTree) :
    grammar.read (thenSkip (.optional (skipThen (spaced (symbol ',')) (spaced Idl.type)))
        (.seq (spaced (symbol '>')) (.seq (.optional (spaced parameters)) semicolon)))
        (written (typesBehind (.mark .comma) second.toList ++
          .mark .greater :: .mark .semicolon :: others)) =
      if typesSound second.toList then some (second.map TypeTree.use, gap others) else none := by
  have closed : grammar.read (.seq (spaced (symbol '>'))
      (.seq (.optional (spaced parameters)) semicolon))
        (written (.mark .greater :: .mark .semicolon :: others)) =
          some ((['>'], none, [';']), gap others) := by
    simp [read_seq, read_optional, parameters, semicolon, Mark.char]
  rw [read_thenSkip]
  cases second with
  | none =>
    have absent : grammar.read (skipThen (spaced (symbol ',')) (spaced Idl.type))
        (written (.mark .greater :: .mark .semicolon :: others)) = none := by
      simp [Mark.char]
    simp only [Option.toList_none, typesBehind, List.nil_append, read_optional_of_none _ absent,
      Option.bind_some, closed]
    rfl
  | some second =>
    have behind : grammar.read (skipThen (spaced (symbol ',')) (spaced Idl.type))
        (written (.mark .comma :: (second.lexemes ++ .mark .greater :: .mark .semicolon ::
          others))) = (grammar.read Idl.type (written (second.lexemes ++ .mark .greater ::
            .mark .semicolon :: others))).map fun reading => (reading.1, afterBlank reading.2) :=
      read_typeBehind separatesTypes_comma _
    have lexemes : typesBehind (.mark .comma) (some second).toList ++
        .mark .greater :: .mark .semicolon :: others =
          .mark .comma :: (second.lexemes ++ .mark .greater :: .mark .semicolon :: others) := by
      simp [typesBehind]
    rw [lexemes]
    by_cases isSound : second.sound = true
    · have found := read_type isSound
        (show followsType (.mark .greater :: .mark .semicolon :: others) = true from rfl)
      rw [found, Option.map_some, afterBlank_gap] at behind
      rw [read_optional_of_some _ behind, Option.bind_some, closed,
        if_pos (by simp [typesSound, isSound])]
      rfl
    · rw [if_neg (by simp [typesSound, isSound])]
      rcases typeStuck (eq_false_of_ne_true isSound)
        (.mark .greater :: .mark .semicolon :: others) with
        missing | ⟨use, mark, rest, isLeft, stuck⟩
      · rw [missing, Option.map_none] at behind
        simp [read_optional_of_none _ behind, read_seq, Mark.char]
      · rw [stuck, Option.map_some, afterBlank_gap] at behind
        simp [read_optional_of_some _ behind, read_seq, mark.char_of_isLeft isLeft]

/-- An iterable declaration takes one type or two. -/
theorem read_iterableTypes (first : TypeTree) (second : Option TypeTree) :
    grammar.read iterableTypes (written (first.lexemes ++ (typesBehind (.mark .comma)
        second.toList ++ .mark .greater :: .mark .semicolon :: others))) =
      if first.sound && typesSound second.toList then
        some ((first.use, second.map TypeTree.use), gap others)
      else none := by
  rw [iterableTypes]
  by_cases isSound : first.sound = true
  · have follows := followsType_typesBehind separatesTypes_comma second.toList
      (.mark .semicolon :: others)
    rw [read_seq, read_spaced, read_type isSound follows, Option.map_some, Option.bind_some,
      afterBlank_gap, read_secondType, isSound, Bool.true_and]
    split <;> rfl
  · have stuck := typeStuck (eq_false_of_ne_true isSound) (typesBehind (.mark .comma)
      second.toList ++ .mark .greater :: .mark .semicolon :: others)
    rw [if_neg (by simp [isSound])]
    refine stuck.seq_none fun mark rest isLeft => ?_
    have apart := mark.char_of_isLeft isLeft
    simp [read_seq, read_optional, apart]

/-- A setlike declaration takes exactly one type. -/
theorem read_setlikeTypes (type : TypeTree) :
    grammar.read setlikeTypes (written (type.lexemes ++ (typesBehind (.mark .comma) [] ++
        .mark .greater :: .mark .semicolon :: others))) =
      if type.sound && typesSound [] then some (type.use, gap others) else none := by
  rw [typesBehind, List.nil_append]
  by_cases isSound : type.sound = true
  · simp [setlikeTypes, read_seq, isSound, typesSound, semicolon, Mark.char]
  · have stuck := typeStuck (eq_false_of_ne_true isSound)
      (.mark .greater :: .mark .semicolon :: others)
    rw [setlikeTypes, if_neg (by simp [isSound])]
    refine stuck.thenSkip_none fun mark rest isLeft => ?_
    simp [read_seq, mark.char_of_isLeft isLeft]

/-- A maplike declaration takes exactly two types. -/
theorem read_maplikeTypes (key value : TypeTree) :
    grammar.read maplikeTypes (written (key.lexemes ++ (typesBehind (.mark .comma) [value] ++
        .mark .greater :: .mark .semicolon :: others))) =
      if key.sound && typesSound [value] then some ((key.use, value.use), gap others)
      else none := by
  have last := read_setlikeTypes others value
  rw [typesBehind, List.nil_append, setlikeTypes] at last
  simp only [typesBehind, List.append_nil, List.cons_append]
  by_cases isSound : key.sound = true
  · have follows : followsType (.mark .comma :: (value.lexemes ++ .mark .greater ::
      .mark .semicolon :: others)) = true := rfl
    have found : grammar.read (thenSkip (spaced Idl.type) (spaced (symbol ',')))
        (written (key.lexemes ++ .mark .comma :: (value.lexemes ++ .mark .greater ::
          .mark .semicolon :: others))) =
        some (key.use,
          written (value.lexemes ++ .mark .greater :: .mark .semicolon :: others)) := by
      simp [read_type isSound follows, Mark.char]
    rw [maplikeTypes, read_seq, found, Option.bind_some, last, isSound, Bool.true_and]
    by_cases valueSound : value.sound = true <;> simp [typesSound, valueSound]
  · have missing : grammar.read (thenSkip (spaced Idl.type) (spaced (symbol ',')))
        (written (key.lexemes ++ .mark .comma :: (value.lexemes ++ .mark .greater ::
          .mark .semicolon :: others))) = none :=
      (typeStuck (eq_false_of_ne_true isSound) _).thenSkip_none fun mark rest isLeft => by
        simp [mark.char_of_isLeft isLeft]
    rw [maplikeTypes, read_seq, missing, if_neg (by simp [isSound])]
    rfl

section Collections

variable {Value : Type} {flag word : Keyword} {types : Phrase Value}
  {build : Bool × Value → Member}

/-- A collection is read like its types behind its flag and its word. -/
theorem read_collection (different : word ≠ flag) (isPresent : Bool) (first : TypeTree)
    (list : List TypeTree) :
    grammar.read (.map build (.seq (present (spaced (keyword flag)))
        (skipThen (spaced (keyword word)) (skipThen (spaced (symbol '<')) types))))
        (written (keywordLexemes (flagged isPresent flag) ++
          (collectionLexemes word first list ++ others))) =
      (grammar.read types (written (first.lexemes ++ (typesBehind (.mark .comma) list ++
        .mark .greater :: .mark .semicolon :: others)))).map fun reading =>
          (build (isPresent, reading.1), reading.2) := by
  have opened : grammar.read (skipThen (spaced (keyword word))
      (skipThen (spaced (symbol '<')) types))
        (written (collectionLexemes word first list ++ others)) =
        grammar.read types (written (first.lexemes ++ (typesBehind (.mark .comma) list ++
          .mark .greater :: .mark .semicolon :: others))) := by
    simp [collectionLexemes, Mark.char]
  have missing : grammar.scan (.keyword flag) (written (collectionLexemes word first list ++
      others)) = none := by
    simp [collectionLexemes, different]
  rw [read_map, read_seq, read_flag isPresent missing, Option.bind_some, opened, Option.map_map]
  rfl

/-- Another collection with the same flag is not read. -/
theorem read_collection_other {other : Keyword} (apart : other ≠ word) (notFlag : other ≠ flag)
    (isPresent : Bool) (lexemes : List Lexeme) :
    grammar.read (.map build (.seq (present (spaced (keyword flag)))
        (skipThen (spaced (keyword word)) (skipThen (spaced (symbol '<')) types))))
        (written (keywordLexemes (flagged isPresent flag) ++ .keyword other :: lexemes)) =
      none := by
  have missing : grammar.scan (.keyword flag) (written (.keyword other :: lexemes)) = none := by
    simp [notFlag]
  rw [read_map, read_seq, read_flag isPresent missing]
  simp [apart]

end Collections

/-- An iterable declaration is read with the word in front of it. -/
theorem read_iterableMember (isAsync : Bool) (first : TypeTree) (second : Option TypeTree) :
    grammar.read iterableMember
        (written ((MemberCore.iterable isAsync first second).lexemes ++ others)) =
      if (MemberCore.iterable isAsync first second).sound then
        some ((MemberCore.iterable isAsync first second).declared, gap others)
      else none := by
  rw [MemberCore.lexemes, List.append_assoc]
  refine (read_collection others (by decide) isAsync first second.toList).trans ?_
  change (grammar.read iterableTypes _).map _ = _
  rw [read_iterableTypes, MemberCore.sound]
  split
  · cases second <;> rfl
  · rfl

/-- A maplike declaration is read with its read-only mark. -/
theorem read_maplikeMember (isReadonly : Bool) (key value : TypeTree) :
    grammar.read maplikeMember
        (written ((MemberCore.maplike isReadonly key value).lexemes ++ others)) =
      if (MemberCore.maplike isReadonly key value).sound then
        some ((MemberCore.maplike isReadonly key value).declared, gap others)
      else none := by
  rw [MemberCore.lexemes, List.append_assoc]
  refine (read_collection others (by decide) isReadonly key [value]).trans ?_
  change (grammar.read maplikeTypes _).map _ = _
  rw [read_maplikeTypes, MemberCore.sound]
  split <;> rfl

theorem read_setlikeMember (isReadonly : Bool) (type : TypeTree) :
    grammar.read setlikeMember
        (written ((MemberCore.setlike isReadonly type).lexemes ++ others)) =
      if (MemberCore.setlike isReadonly type).sound then
        some ((MemberCore.setlike isReadonly type).declared, gap others)
      else none := by
  rw [MemberCore.lexemes, List.append_assoc]
  refine (read_collection others (by decide) isReadonly type []).trans ?_
  change (grammar.read setlikeTypes _).map _ = _
  rw [read_setlikeTypes, MemberCore.sound]
  split <;> rfl

/-- A flag is a qualifier or absent. -/
theorem qualify_flagged {word : Keyword} (isQualifier : word.isQualifier = true)
    (isPresent : Bool) : ∀ other ∈ flagged isPresent word, other.isQualifier = true := by
  cases isPresent with
  | false => exact nofun
  | true => simp [flagged, isQualifier]

/-- A collection begins with its flag or its word. -/
theorem collectionLexemes_eq (flag word : Keyword) (isPresent : Bool) (first : TypeTree)
    (types : List TypeTree) :
    ∃ start lexemes, keywordLexemes (flagged isPresent flag) ++
      collectionLexemes word first types ++ others = .keyword start :: lexemes ∧
        (start = flag ∨ start = word) := by
  cases isPresent with
  | false => exact ⟨word, _, rfl, .inr rfl⟩
  | true => exact ⟨flag, _, rfl, .inl rfl⟩

/-- With an unsound type the word of a collection is read as the type of an operation. -/
theorem read_collection_unqualified {word : Keyword} (notQualifier : word.isQualifier = false)
    (notAttribute : word ≠ .attribute) (isPresent : Bool) {first : TypeTree}
    {types : List TypeTree} (unsound : (first.sound && typesSound types) = false) :
    (grammar.read attributeMember (written (keywordLexemes (flagged isPresent .readonly) ++
      collectionLexemes word first types ++ others))).or
        (grammar.read operationMember (written (keywordLexemes (flagged isPresent .readonly) ++
          collectionLexemes word first types ++ others))) = none := by
  have qualify := @qualify_flagged .readonly rfl isPresent
  have stop : grammar.read qualifier (written (collectionLexemes word first types ++ others)) =
      none := read_qualifier_keyword notQualifier
  rw [List.append_assoc]
  exact read_unqualified notAttribute (readMany_qualifier qualify stop)
    (read_operationTail_collection others word unsound)

/-- None of the alternatives without a flag of the collection is read. -/
theorem read_earlier_none {flag word : Keyword} (isFlag : flag = .async ∨ flag = .readonly)
    (isWord : word = .iterable ∨ word = .maplike ∨ word = .setlike) (isPresent : Bool)
    (first : TypeTree) (types : List TypeTree) :
    grammar.read constructorMember (written (keywordLexemes (flagged isPresent flag) ++
        collectionLexemes word first types ++ others)) = none ∧
      grammar.read constantMember (written (keywordLexemes (flagged isPresent flag) ++
        collectionLexemes word first types ++ others)) = none := by
  obtain ⟨start, lexemes, same, starts⟩ :=
    collectionLexemes_eq others flag word isPresent first types
  rw [same]
  constructor
  · apply read_constructorMember_keyword
    rintro rfl
    rcases starts with rfl | rfl <;> simp at isFlag isWord
  · apply read_constantMember_keyword
    rintro rfl
    rcases starts with rfl | rfl <;> simp at isFlag isWord

/-- A read-only collection is no iterable declaration. -/
theorem read_iterableMember_readonly {word : Keyword} (notAsync : word ≠ .async)
    (notIterable : word ≠ .iterable) (isPresent : Bool) (first : TypeTree)
    (types : List TypeTree) :
    grammar.read iterableMember (written (keywordLexemes (flagged isPresent .readonly) ++
      collectionLexemes word first types ++ others)) = none := by
  cases isPresent with
  | false => exact read_iterableMember_keyword _ notAsync notIterable
  | true => exact read_iterableMember_keyword _ (by decide) (by decide)

/-- A maplike declaration is read by its own alternative, or by none. -/
theorem read_plainMember_maplike (isReadonly : Bool) (key value : TypeTree) :
    grammar.read plainMember
        (written ((MemberCore.maplike isReadonly key value).lexemes ++ others)) =
      if (MemberCore.maplike isReadonly key value).sound then
        some ((MemberCore.maplike isReadonly key value).declared, gap others)
      else none := by
  have own := read_maplikeMember others isReadonly key value
  rw [MemberCore.lexemes] at own ⊢
  obtain ⟨noConstructor, noConstant⟩ := read_earlier_none others (.inr rfl) (.inr (.inl rfl))
    isReadonly key [value]
  have noIterable := @read_iterableMember_readonly others .maplike (by decide) (by decide)
    isReadonly key [value]
  have noSetlike : grammar.read setlikeMember (written (keywordLexemes
      (flagged isReadonly .readonly) ++ collectionLexemes .maplike key [value] ++ others)) =
        none := by
    rw [List.append_assoc]
    exact read_collection_other (by decide) (by decide) isReadonly _
  by_cases isSound : (MemberCore.maplike isReadonly key value).sound = true
  · rw [if_pos isSound] at own ⊢
    simp only [plainMember, firstOf, read_choice, noConstructor, noConstant, noIterable, own,
      Option.none_or, Option.some_or]
  · rw [if_neg isSound] at own ⊢
    rw [read_plainMember_of_earlier noConstructor noConstant noIterable own noSetlike]
    exact read_collection_unqualified others rfl (by decide) isReadonly
      (eq_false_of_ne_true isSound)

/-- A setlike declaration is read by its own alternative, or by none. -/
theorem read_plainMember_setlike (isReadonly : Bool) (type : TypeTree) :
    grammar.read plainMember
        (written ((MemberCore.setlike isReadonly type).lexemes ++ others)) =
      if (MemberCore.setlike isReadonly type).sound then
        some ((MemberCore.setlike isReadonly type).declared, gap others)
      else none := by
  have own := read_setlikeMember others isReadonly type
  rw [MemberCore.lexemes] at own ⊢
  obtain ⟨noConstructor, noConstant⟩ := read_earlier_none others (.inr rfl) (.inr (.inr rfl))
    isReadonly type []
  have noIterable := @read_iterableMember_readonly others .setlike (by decide) (by decide)
    isReadonly type []
  have noMaplike : grammar.read maplikeMember (written (keywordLexemes
      (flagged isReadonly .readonly) ++ collectionLexemes .setlike type [] ++ others)) =
        none := by
    rw [List.append_assoc]
    exact read_collection_other (by decide) (by decide) isReadonly _
  by_cases isSound : (MemberCore.setlike isReadonly type).sound = true
  · rw [if_pos isSound] at own ⊢
    simp only [plainMember, firstOf, read_choice, noConstructor, noConstant, noIterable,
      noMaplike, own, Option.none_or, Option.some_or]
  · rw [if_neg isSound] at own ⊢
    rw [read_plainMember_of_earlier noConstructor noConstant noIterable noMaplike own]
    exact read_collection_unqualified others rfl (by decide) isReadonly
      (eq_false_of_ne_true isSound)

/-- An iterable declaration is read by its own alternative, or by none. -/
theorem read_plainMember_iterable (isAsync : Bool) (first : TypeTree)
    (second : Option TypeTree) :
    grammar.read plainMember
        (written ((MemberCore.iterable isAsync first second).lexemes ++ others)) =
      if (MemberCore.iterable isAsync first second).sound then
        some ((MemberCore.iterable isAsync first second).declared, gap others)
      else none := by
  have own := read_iterableMember others isAsync first second
  rw [MemberCore.lexemes] at own ⊢
  obtain ⟨noConstructor, noConstant⟩ := read_earlier_none others (.inl rfl) (.inl rfl) isAsync
    first second.toList
  by_cases isSound : (MemberCore.iterable isAsync first second).sound = true
  · rw [if_pos isSound] at own ⊢
    simp only [plainMember, firstOf, read_choice, noConstructor, noConstant, own, Option.none_or,
      Option.some_or]
  · rw [if_neg isSound] at own ⊢
    cases isAsync with
    | false =>
      rw [read_plainMember_of_earlier noConstructor noConstant own
        (read_maplikeMember_keyword _ (by decide) (by decide))
        (read_setlikeMember_keyword _ (by decide) (by decide))]
      exact read_collection_unqualified others rfl (by decide) false
        (eq_false_of_ne_true isSound)
    | true =>
      rw [read_plainMember_of_earlier noConstructor noConstant own
        (read_maplikeMember_keyword _ (by decide) (by decide))
        (read_setlikeMember_keyword _ (by decide) (by decide))]
      exact read_unqualified (by decide)
        (readMany_of_none (@read_qualifier_keyword _ .async rfl))
        (read_operationTail_async others .async .iterable first second.toList)

end InterfaceAudit.Idl
