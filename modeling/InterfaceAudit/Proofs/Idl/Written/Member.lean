import InterfaceAudit.Proofs.Idl.Written.Collection

/-!
Members of a written body.
A member is read when it is sound. One that is not is read by none of the alternatives: an operation
stops behind the first words of the member.
-/

namespace InterfaceAudit.Idl

open Grammar
open Grammar.Expression (skipThen thenSkip firstOf present)

variable (others : List Lexeme)

/-! ### Attributes and operations -/

/-- The words in front of an attribute are qualifiers. -/
theorem qualify_attributeWords (isStatic inherit isReadonly : Bool) :
    ∀ word ∈ attributeWords isStatic inherit isReadonly, word.isQualifier = true := by
  revert isStatic inherit isReadonly
  decide

/-- The words in front of an operation are qualifiers. -/
theorem qualify_operationWords (isStatic : Bool) (special : Option Special) :
    ∀ word ∈ operationWords isStatic special, word.isQualifier = true := by
  cases special with
  | none => cases isStatic <;> decide
  | some special => cases isStatic <;> cases special <;> decide

/-- The flags of an attribute are found among its words. -/
theorem contains_attributeWords (isStatic inherit isReadonly : Bool) :
    (spellings (attributeWords isStatic inherit isReadonly)).contains "readonly" = isReadonly ∧
      (spellings (attributeWords isStatic inherit isReadonly)).contains "static" = isStatic ∧
      (spellings (attributeWords isStatic inherit isReadonly)).contains "inherit" = inherit := by
  revert isStatic inherit isReadonly
  decide

/-- An operation is static when it says so, and its other word makes it special. -/
theorem contains_operationWords (isStatic : Bool) (special : Option Special) :
    (spellings (operationWords isStatic special)).contains "static" = isStatic ∧
      (spellings (operationWords isStatic special)).find? (· != "static") =
        special.map Special.text := by
  cases special with
  | none => cases isStatic <;> decide
  | some special => cases isStatic <;> cases special <;> decide

/-- An attribute is read with its flags when its type is sound, and otherwise by nothing. -/
theorem read_plainMember_attribute (isStatic inherit isReadonly : Bool) (type : TypeTree)
    (name : Identifier) :
    grammar.read plainMember (written
        ((MemberCore.attribute isStatic inherit isReadonly type name).lexemes ++ others)) =
      if (MemberCore.attribute isStatic inherit isReadonly type name).sound then
        some ((MemberCore.attribute isStatic inherit isReadonly type name).declared, gap others)
      else none := by
  have qualify := qualify_attributeWords isStatic inherit isReadonly
  have found := readMany_qualifier qualify (@read_qualifier_keyword
    (type.lexemes ++ .name name :: .mark .semicolon :: others) .attribute rfl)
  rw [MemberCore.lexemes]
  simp only [List.cons_append, List.append_assoc, List.nil_append]
  rw [read_plainMember_qualified qualify (endsQualifiers_attribute _)]
  by_cases isSound : type.sound = true
  · rw [if_pos (show (MemberCore.attribute isStatic inherit isReadonly type name).sound = true
      from isSound)]
    obtain ⟨readonly, static, inherits⟩ := contains_attributeWords isStatic inherit isReadonly
    have tail : grammar.read (skipThen (spaced (keyword .attribute))
        (.seq (spaced Idl.type) (thenSkip (spaced Idl.name) semicolon)))
          (written (.keyword .attribute :: (type.lexemes ++ .name name :: .mark .semicolon ::
            others))) = some ((type.use, String.ofList name.chars), gap others) := by
      simp [read_seq, isSound, semicolon, Mark.char]
    rw [attributeMember, read_map, read_seq, read_many, found, Option.bind_some, tail]
    simp only [Option.map_some, Option.some_or, MemberCore.declared, TypeTree.use]
    rw [readonly, static, inherits]
  · have unsound := eq_false_of_ne_true isSound
    have missing : grammar.read (.seq (spaced Idl.type) (thenSkip (spaced Idl.name) semicolon))
        (written (type.lexemes ++ .name name :: .mark .semicolon :: others)) = none :=
      (typeStuck unsound _).seq_none fun mark rest _ => by simp
    have noAttribute : grammar.read attributeMember (written (keywordLexemes
        (attributeWords isStatic inherit isReadonly) ++ .keyword .attribute ::
          (type.lexemes ++ .name name :: .mark .semicolon :: others))) = none := by
      rw [attributeMember, read_map, read_seq, read_many, found]
      simp [missing]
    rw [if_neg (show ¬(MemberCore.attribute isStatic inherit isReadonly type name).sound = true
      from isSound), noAttribute, read_operationMember found,
      read_operationTail_keyword _ _ unsound]
    rfl

/-- An operation is read with its qualifiers when its type and arguments are sound. -/
theorem read_plainMember_operation (isStatic : Bool) (special : Option Special)
    (type : TypeTree) (name : Option Identifier) (arguments : List ArgumentTree) :
    grammar.read plainMember (written
        ((MemberCore.operation isStatic special type name arguments).lexemes ++ others)) =
      if (MemberCore.operation isStatic special type name arguments).sound then
        some ((MemberCore.operation isStatic special type name arguments).declared, gap others)
      else none := by
  have qualify := qualify_operationWords isStatic special
  have ends := endsQualifiers_type type (name.toList.map .name ++
    (parameterLexemes arguments ++ .mark .semicolon :: others))
  have found := readMany_qualifier qualify (read_qualifier_ends ends)
  obtain ⟨static, specials⟩ := contains_operationWords isStatic special
  rw [MemberCore.lexemes]
  simp only [List.cons_append, List.append_assoc, List.nil_append]
  have noAttribute : grammar.read attributeMember (written (keywordLexemes
      (operationWords isStatic special) ++ (type.lexemes ++ (name.toList.map .name ++
        (parameterLexemes arguments ++ .mark .semicolon :: others))))) = none := by
    rw [attributeMember, read_map, read_seq, read_many, found]
    simp
  rw [read_plainMember_qualified qualify ends, noAttribute, read_operationMember found,
    read_operationTail, static, specials, MemberCore.sound]
  split <;> rfl

/-- A member of a body is read when it is sound. -/
theorem read_plainMember (core : MemberCore) :
    grammar.read plainMember (written (core.lexemes ++ others)) =
      if core.sound then some (core.declared, gap others) else none := by
  cases core with
  | constructor arguments => exact read_plainMember_constructor others arguments
  | constant type name value => exact read_plainMember_constant others type name value
  | iterable isAsync first second => exact read_plainMember_iterable others isAsync first second
  | maplike isReadonly key value => exact read_plainMember_maplike others isReadonly key value
  | setlike isReadonly type => exact read_plainMember_setlike others isReadonly type
  | «attribute» isStatic inherit isReadonly type name =>
    exact read_plainMember_attribute others isStatic inherit isReadonly type name
  | operation isStatic special type name arguments =>
    exact read_plainMember_operation others isStatic special type name arguments

/-! ### Members -/

/-- A bare stringifier is read only where a semicolon follows its word. -/
theorem read_bareStringifier_qualified (words : List Keyword) {lexemes : List Lexeme}
    (noWord : grammar.scan (.keyword .stringifier) (written lexemes) = none)
    (noSemicolon : grammar.scan (.symbol ';') (written lexemes) = none) :
    grammar.read bareStringifier (written (keywordLexemes words ++ lexemes)) = none := by
  cases words with
  | nil =>
    change grammar.read bareStringifier (written lexemes) = none
    simp [bareStringifier, read_seq, noWord]
  | cons word rest =>
    have behind : grammar.scan (.symbol ';') (written (keywordLexemes rest ++ lexemes)) = none := by
      cases rest with
      | nil => exact noSemicolon
      | cons next rest => exact scan_symbol_word _ (by decide) next.word
    have opened : grammar.read (spaced (keyword .stringifier))
        (written (.keyword word :: (keywordLexemes rest ++ lexemes))) =
          if word = .stringifier then
            some (Keyword.stringifier.spelling, written (keywordLexemes rest ++ lexemes))
          else none := by
      simp only [read_spaced, read_keyword, scan_keyword, Keyword.word_chars,
        Keyword.spelling_eq_iff]
      split <;> simp
    change grammar.read bareStringifier
      (written (.keyword word :: (keywordLexemes rest ++ lexemes))) = none
    rw [bareStringifier, read_map, read_seq, opened]
    split <;> simp [semicolon, behind]

/-- No member is a bare stringifier. -/
theorem read_bareStringifier (core : MemberCore) :
    grammar.read bareStringifier (written (core.lexemes ++ others)) = none := by
  have keywordFirst {word : Keyword} (different : word ≠ .stringifier) (words : List Keyword)
      (lexemes : List Lexeme) : grammar.read bareStringifier
        (written (keywordLexemes words ++ .keyword word :: lexemes)) = none :=
    read_bareStringifier_qualified words (by simp [different])
      (scan_symbol_word lexemes (by decide) word.word)
  cases core with
  | constructor arguments => exact keywordFirst (by decide) [] _
  | constant type name value => exact keywordFirst (by decide) [] _
  | iterable isAsync first second =>
    rw [MemberCore.lexemes, List.append_assoc]
    exact keywordFirst (by decide) (flagged isAsync .async) _
  | maplike isReadonly key value =>
    rw [MemberCore.lexemes, List.append_assoc]
    exact keywordFirst (by decide) (flagged isReadonly .readonly) _
  | setlike isReadonly type =>
    rw [MemberCore.lexemes, List.append_assoc]
    exact keywordFirst (by decide) (flagged isReadonly .readonly) _
  | «attribute» isStatic inherit isReadonly type name =>
    rw [MemberCore.lexemes, List.append_assoc]
    exact keywordFirst (by decide) (attributeWords isStatic inherit isReadonly) _
  | operation isStatic special type name arguments =>
    rw [MemberCore.lexemes, List.append_assoc, List.append_assoc]
    exact read_bareStringifier_qualified (operationWords isStatic special)
      (scan_keyword_type _ .stringifier type) (scan_symbol_type _ (by decide) (by decide) type)

/-- A member without attributes is read as declared exactly when it is sound. -/
theorem read_memberAlternatives (core : MemberCore) :
    grammar.read memberAlternatives (written (core.lexemes ++ others)) =
      if core.sound then some (some core.declared, gap others) else none := by
  rw [memberAlternatives, read_choice, read_map, read_plainMember, read_bareStringifier]
  split <;> rfl

/-- No member begins with a mark that begins no type. -/
theorem read_memberAlternatives_mark {mark : Mark}
    (noType : grammar.read Idl.type (written (.mark mark :: others)) = none) :
    grammar.read memberAlternatives (written (.mark mark :: others)) = none := by
  have noQualifier : grammar.read qualifier (written (.mark mark :: others)) = none :=
    read_qualifier_none fun word _ => scan_keyword_mark others word _
  have noFlag {word : Keyword} : grammar.read (present (spaced (keyword word)))
      (written (.mark mark :: others)) =
        some (false, written (.mark mark :: others)) :=
    read_flag_none (scan_keyword_mark others word _)
  have stop := readMany_of_none noQualifier
  have noTail : grammar.read operationTail (written (.mark mark :: others)) = none := by
    simp [operationTail, read_seq, noType]
  have noPlain : grammar.read plainMember (written (.mark mark :: others)) = none := by
    rw [read_plainMember_of_earlier]
    · have noAttribute : grammar.read attributeMember
          (written (.mark mark :: others)) = none := by
        simp [attributeMember, read_seq, stop]
      rw [noAttribute, read_operationMember stop, noTail]
      rfl
    · simp [constructorMember]
    · simp [constantMember]
    · rw [iterableMember, read_map, read_seq, noFlag]
      simp
    · rw [maplikeMember, read_map, read_seq, noFlag]
      simp
    · rw [setlikeMember, read_map, read_seq, noFlag]
      simp
  simp [memberAlternatives, read_choice, noPlain, bareStringifier, read_seq]

theorem failsAtBracket_member : FailsAtBracket memberAlternatives := by
  intro others missing
  exact read_memberAlternatives_mark others (read_type_mark (by decide) missing)

/-- A member begins with a word or with the parenthesis of a union. -/
theorem scan_symbol_memberCore {mark : Char} (notPart : isTokenPart mark = false)
    (notParenthesis : '(' ≠ mark) (core : MemberCore) :
    grammar.scan (.symbol mark) (written (core.lexemes ++ others)) = none := by
  have keywordFirst (words : List Keyword) {lexemes : List Lexeme}
      (missing : grammar.scan (.symbol mark) (written lexemes) = none) :
      grammar.scan (.symbol mark) (written (keywordLexemes words ++ lexemes)) = none := by
    cases words with
    | nil => exact missing
    | cons word rest => exact scan_symbol_word _ notPart word.word
  cases core with
  | constructor arguments => exact scan_symbol_word _ notPart _
  | constant type name value => exact scan_symbol_word _ notPart _
  | iterable isAsync first second =>
    rw [MemberCore.lexemes, List.append_assoc]
    exact keywordFirst _ (scan_symbol_word _ notPart _)
  | maplike isReadonly key value =>
    rw [MemberCore.lexemes, List.append_assoc]
    exact keywordFirst _ (scan_symbol_word _ notPart _)
  | setlike isReadonly type =>
    rw [MemberCore.lexemes, List.append_assoc]
    exact keywordFirst _ (scan_symbol_word _ notPart _)
  | «attribute» isStatic inherit isReadonly type name =>
    rw [MemberCore.lexemes, List.append_assoc]
    exact keywordFirst _ (scan_symbol_word _ notPart _)
  | operation isStatic special type name arguments =>
    rw [MemberCore.lexemes, List.append_assoc, List.append_assoc]
    exact keywordFirst _ (scan_symbol_type _ notPart notParenthesis type)

/-- A member is read with its extended attributes when both are sound. -/
theorem read_member (member : MemberTree) :
    grammar.read (spaced Idl.member) (written (member.lexemes ++ others)) =
      if member.sound then some (some member.declared, written others) else none := by
  obtain ⟨extAttrs, core⟩ := member
  have noBracket := scan_symbol_memberCore others (show isTokenPart '[' = false by decide)
    (by decide) core
  rw [MemberTree.lexemes, List.append_assoc, read_spaced, member_eq, read_map,
    read_attributed failsAtBracket_member extAttrs noBracket, read_memberAlternatives]
  by_cases isSound : extAttrsSound extAttrs = true
  · by_cases coreSound : core.sound = true <;>
      simp [MemberTree.sound, MemberTree.declared, isSound, coreSound]
  · simp [MemberTree.sound, isSound]

/-- No member stands in front of the closing brace. -/
theorem read_member_closeBrace :
    grammar.read (spaced Idl.member) (written (.mark .closeBrace :: others)) = none := by
  have noBracket : grammar.scan (.symbol '[') (written (.mark .closeBrace :: others)) = none := by
    simp [Mark.char]
  have noType := read_type_mark (by decide) (read_extAttrSection_none noBracket)
  have missing := read_attributed failsAtBracket_member [] noBracket
  rw [sectionLexemes, List.nil_append, read_memberAlternatives_mark others noType] at missing
  rw [read_spaced, member_eq, read_map, missing]
  rfl

end InterfaceAudit.Idl
