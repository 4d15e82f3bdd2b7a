import InterfaceAudit.Proofs.Idl.Written.Body

/-!
Definitions of a written text.
A definition is read with its extended attributes when everything in it is sound.
-/

namespace InterfaceAudit.Idl

open Grammar
open Grammar.Expression (skipThen thenSkip firstOf separated)

/-- The definitions that may come in parts. -/
inductive PartTree where
  | interface (name : Identifier) (inheritance : Option Identifier) (members : List MemberTree)
  | mixin (name : Identifier) (members : List MemberTree)
  | «namespace» (name : Identifier) (members : List MemberTree)
  | dictionary (name : Identifier) (inheritance : Option Identifier) (fields : List FieldTree)

/-- A definition without its extended attributes. -/
inductive DefinitionCore where
  | complete (content : PartTree)
  | «partial» (content : PartTree)
  | callbackInterface (name : Identifier) (members : List MemberTree)
  | callback (name : Identifier) (type : TypeTree) (parameters : List ArgumentTree)
  | enumeration (name : Identifier) (values : List Quotable)
  | typedef (type : TypeTree) (name : Identifier)
  | inclusion (target mixin : Identifier)

structure DefinitionTree where
  extAttrs : List ExtAttrTree
  core : DefinitionCore

/-! ### Lexemes -/

def inheritanceLexemes : Option Identifier → List Lexeme
  | none => []
  | some name => [.mark .colon, .name name]

def membersLexemes (members : List MemberTree) : List Lexeme :=
  bodyLexemes (members.flatMap MemberTree.lexemes)

def PartTree.lexemes : PartTree → List Lexeme
  | .interface name inheritance members =>
    .keyword .interface :: .name name :: (inheritanceLexemes inheritance ++ membersLexemes members)
  | .mixin name members =>
    .keyword .interface :: .keyword .mixin :: .name name :: membersLexemes members
  | .namespace name members => .keyword .namespace :: .name name :: membersLexemes members
  | .dictionary name inheritance fields =>
    .keyword .dictionary :: .name name ::
      (inheritanceLexemes inheritance ++ bodyLexemes (fields.flatMap FieldTree.lexemes))

/-- The word for a part stands in front of its definition. -/
def DefinitionCore.lead : DefinitionCore → List Lexeme
  | .partial _ => [.keyword .partial]
  | _ => []

def DefinitionCore.lexemes : DefinitionCore → List Lexeme
  | .complete content => content.lexemes
  | .partial content => content.lexemes
  | .callbackInterface name members =>
    .keyword .callback :: .keyword .interface :: .name name :: membersLexemes members
  | .callback name type parameters =>
    .keyword .callback :: .name name :: .mark .equals ::
      (type.lexemes ++ (parameterLexemes parameters ++ [.mark .semicolon]))
  | .enumeration name values =>
    .keyword .enumeration :: .name name :: bodyLexemes (valuesLexemes values)
  | .typedef type name => .keyword .typedef :: (type.lexemes ++ [.name name, .mark .semicolon])
  | .inclusion target mixin =>
    [.name target, .keyword .includes, .name mixin, .mark .semicolon]

def DefinitionTree.lexemes (definition : DefinitionTree) : List Lexeme :=
  sectionLexemes definition.extAttrs ++ (definition.core.lead ++ definition.core.lexemes)

/-! ### Soundness and declarations -/

def PartTree.sound : PartTree → Bool
  | .interface _ _ members => members.all MemberTree.sound
  | .mixin _ members => members.all MemberTree.sound
  | .namespace _ members => members.all MemberTree.sound
  | .dictionary _ _ fields => fields.all FieldTree.sound

/-- An enumeration has a value. -/
def DefinitionCore.sound : DefinitionCore → Bool
  | .complete content => content.sound
  | .partial content => content.sound
  | .callbackInterface _ members => members.all MemberTree.sound
  | .callback _ type parameters => type.sound && argumentsSound parameters
  | .enumeration _ values => !values.isEmpty
  | .typedef type _ => type.sound
  | .inclusion _ _ => true

def DefinitionTree.sound (definition : DefinitionTree) : Bool :=
  extAttrsSound definition.extAttrs && definition.core.sound

/-- An identifier as it is declared. -/
def Identifier.text (name : Identifier) : String := String.ofList name.chars

def PartTree.declared : PartTree → Definition
  | .interface name inheritance members =>
    .interface
      { name := name.text
        inheritance := inheritance.map Identifier.text
        members := members.map MemberTree.declared }
  | .mixin name members =>
    .interface
      { name := name.text, members := members.map MemberTree.declared, kind := .mixin }
  | .namespace name members =>
    .interface
      { name := name.text, members := members.map MemberTree.declared, kind := .namespace }
  | .dictionary name inheritance fields =>
    .dictionary
      { name := name.text
        inheritance := inheritance.map Identifier.text
        fields := fields.map FieldTree.declared }

def DefinitionCore.declared : DefinitionCore → Definition
  | .complete content => content.declared
  | .partial content => content.declared.asPartial
  | .callbackInterface name members =>
    .interface
      { name := name.text, members := members.map MemberTree.declared, kind := .callback }
  | .callback name type parameters =>
    .callback
      { name := name.text
        returnType := type.text
        parameters := parameters.map ArgumentTree.declared }
  | .enumeration name values =>
    .enumeration { name := name.text, values := values.map Quotable.text }
  | .typedef type name => .typedef { name := name.text, type := type.text }
  | .inclusion target mixin => .inclusion { target := target.text, mixin := mixin.text }

/-- Extended attributes and the word for a part stand in front of the place of a definition. -/
def DefinitionTree.found (definition : DefinitionTree) : Found where
  lead := lineFeeds (sectionLexemes definition.extAttrs)
  extent := lineFeeds definition.core.lexemes
  definition :=
    definition.core.declared.withExtAttrs (definition.extAttrs.map ExtAttrTree.text)

/-! ### Keywords in front of definitions -/

section Keywords

variable {Value : Type} {phrase : Phrase Value} {word : Keyword}

/-- A phrase that starts with a keyword is not read where the keyword is missing. -/
theorem read_of_startsWith (starts : phrase.StartsWith (.keyword word)) {text : List Char}
    (missing : grammar.scan (.keyword word) text = none) : grammar.read phrase text = none := by
  rw [← Option.not_isSome_iff_eq_none]
  intro isSome
  have present := scan_isSome_of_startsWith starts isSome
  rw [missing] at present
  contradiction

/-- A phrase that starts with one keyword is not read from another one. -/
theorem read_of_keyword (starts : phrase.StartsWith (.keyword word)) {other : Keyword}
    (different : other ≠ word) (others : List Lexeme) :
    grammar.read phrase (written (.keyword other :: others)) = none :=
  read_of_startsWith starts (by simp [different])

/-- A phrase that starts with a keyword is not read from an identifier. -/
theorem read_of_name (starts : phrase.StartsWith (.keyword word)) (name : Identifier)
    (others : List Lexeme) : grammar.read phrase (written (.name name :: others)) = none :=
  read_of_startsWith starts (by simp)

/-- The first word of a definition is taken as the target of an inclusion. -/
theorem read_inclusion_none (first : Word) {others : List Lexeme}
    (noIncludes : grammar.scan (.keyword .includes) (written others) = none) :
    grammar.read inclusion (written (.word first :: others)) = none := by
  simp [inclusion, read_seq, noIncludes]

variable {others : List Lexeme}

/-- Only two keywords start a definition with members of its own. -/
theorem read_interfaceDefinition_keyword (notCallback : word ≠ .callback)
    (notInterface : word ≠ .interface) :
    grammar.read interfaceDefinition (written (.keyword word :: others)) = none := by
  simp only [interfaceDefinition, firstOf, read_choice]
  rw [@read_of_keyword _ callbackInterface .callback rfl _ notCallback,
    @read_of_keyword _ callbackFunction .callback rfl _ notCallback,
    @read_of_keyword _ mixin .interface rfl _ notInterface,
    @read_of_keyword _ interface .interface rfl _ notInterface]
  rfl

/-- Four keywords start the other definitions, apart from inclusions. -/
theorem read_plainDefinition_keyword
    (other : word ∉ [Keyword.namespace, .dictionary, .enumeration, .typedef])
    (noIncludes : grammar.scan (.keyword .includes) (written others) = none) :
    grammar.read plainDefinition (written (.keyword word :: others)) = none := by
  simp only [List.mem_cons, List.not_mem_nil, or_false, not_or] at other
  simp only [plainDefinition, firstOf, read_choice]
  rw [@read_of_keyword _ namespaceDefinition .namespace rfl _ other.1,
    @read_of_keyword _ dictionary .dictionary rfl _ other.2.1,
    @read_of_keyword _ enumeration .enumeration rfl _ other.2.2.1,
    @read_of_keyword _ typedef .typedef rfl _ other.2.2.2,
    read_inclusion_none word.word noIncludes]
  rfl

end Keywords

/-! ### Bodies behind names -/

section Bodies

variable (others : List Lexeme)

/-- A body starts with its brace. -/
theorem scan_symbol_body {mark : Char} (different : Mark.openBrace.char ≠ mark)
    (lexemes : List Lexeme) :
    grammar.scan (.symbol mark) (written (bodyLexemes lexemes ++ others)) = none := by
  rw [bodyLexemes, List.cons_append, scan_symbol_mark, if_neg different]

/-- A parent is read when it is written, and none is read in front of a body. -/
theorem read_inheritance (parent : Option Identifier) (lexemes : List Lexeme) :
    grammar.read (spaced inheritance)
        (written (inheritanceLexemes parent ++ (bodyLexemes lexemes ++ others))) =
      some (parent.map Identifier.text, written (bodyLexemes lexemes ++ others)) := by
  cases parent with
  | none =>
    have noColon := scan_symbol_body others (show Mark.openBrace.char ≠ ':' by decide) lexemes
    have missing : grammar.read (skipThen (spaced (symbol ':')) name)
        (written (bodyLexemes lexemes ++ others)) = none := by
      simp [noColon]
    rw [inheritanceLexemes, List.nil_append, read_spaced, inheritance,
      read_optional_of_none _ missing]
    simp
  | some parent =>
    have found : grammar.read (skipThen (spaced (symbol ':')) name)
        (written (.mark .colon :: .name parent :: (bodyLexemes lexemes ++ others))) =
          some (parent.text, gap (bodyLexemes lexemes ++ others)) := by
      simp [Mark.char, Identifier.text]
    rw [inheritanceLexemes, List.cons_append, List.cons_append, List.nil_append, read_spaced,
      inheritance, read_optional_of_some _ found]
    simp

/-- A name is followed by a body. -/
theorem read_named {Value : Type} (content : Phrase Value) (name : Identifier)
    (lexemes : List Lexeme) :
    grammar.read (.seq (spaced Idl.name) content) (written (.name name :: lexemes)) =
      (grammar.read content (written lexemes)).map fun reading =>
        ((name.text, reading.1), reading.2) := by
  simp [read_seq, Identifier.text]

/-- A name and what it inherits from are followed by a body. -/
theorem read_inheriting {Value : Type} (content : Phrase Value) (name : Identifier)
    (parent : Option Identifier) (lexemes : List Lexeme) :
    grammar.read (.seq (spaced Idl.name) (.seq (spaced inheritance) content))
        (written (.name name :: (inheritanceLexemes parent ++ (bodyLexemes lexemes ++ others)))) =
      (grammar.read content (written (bodyLexemes lexemes ++ others))).map fun reading =>
        ((name.text, parent.map Identifier.text, reading.1), reading.2) := by
  rw [read_named, read_seq, read_inheritance, Option.bind_some, Option.map_map]
  rfl

end Bodies

/-! ### Definitions in parts -/

section Parts

variable (others : List Lexeme)

/-- An interface is read with its parent and its members, if these are sound. -/
theorem read_interface (name : Identifier) (parent : Option Identifier)
    (members : List MemberTree) :
    grammar.read interface (written ((PartTree.interface name parent members).lexemes ++ others)) =
      if members.all MemberTree.sound then
        some ((PartTree.interface name parent members).declared, gap others)
      else none := by
  have content := read_inheriting others Idl.members name parent
    (members.flatMap MemberTree.lexemes)
  simp only [PartTree.lexemes, membersLexemes, List.cons_append, List.append_assoc]
  rw [interface, read_map, read_skipThen, read_spaced, read_keyword, scan_keyword,
    if_pos Keyword.interface.word_chars, Option.map_some, Option.bind_some, afterBlank_gap,
    content, read_members]
  split <;> rfl

/-- A mixin is read with its members, if these are sound. -/
theorem read_mixin (name : Identifier) (members : List MemberTree) :
    grammar.read mixin (written ((PartTree.mixin name members).lexemes ++ others)) =
      if members.all MemberTree.sound then
        some ((PartTree.mixin name members).declared, gap others)
      else none := by
  have content := read_named Idl.members name (membersLexemes members ++ others)
  have words : grammar.read (.seq (spaced (keyword .interface)) (spaced (keyword .mixin)))
      (written (.keyword .interface :: .keyword .mixin :: .name name ::
        (membersLexemes members ++ others))) =
      some ((Keyword.interface.spelling, Keyword.mixin.spelling),
        written (.name name :: (membersLexemes members ++ others))) := by
    simp [read_seq]
  simp only [PartTree.lexemes, List.cons_append]
  rw [mixin, read_map, read_skipThen, words, Option.bind_some, content, membersLexemes,
    read_members]
  split <;> rfl

/-- A namespace is read with its members, if these are sound. -/
theorem read_namespaceDefinition (name : Identifier) (members : List MemberTree) :
    grammar.read namespaceDefinition
        (written ((PartTree.namespace name members).lexemes ++ others)) =
      if members.all MemberTree.sound then
        some ((PartTree.namespace name members).declared, gap others)
      else none := by
  have content := read_named Idl.members name (membersLexemes members ++ others)
  simp only [PartTree.lexemes, List.cons_append]
  rw [namespaceDefinition, read_map, read_skipThen, read_spaced, read_keyword, scan_keyword,
    if_pos Keyword.namespace.word_chars, Option.map_some, Option.bind_some, afterBlank_gap,
    content, membersLexemes, read_members]
  split <;> rfl

/-- A dictionary is read with its parent and its fields, if these are sound. -/
theorem read_dictionary (name : Identifier) (parent : Option Identifier)
    (fields : List FieldTree) :
    grammar.read dictionary (written ((PartTree.dictionary name parent fields).lexemes ++ others)) =
      if fields.all FieldTree.sound then
        some ((PartTree.dictionary name parent fields).declared, gap others)
      else none := by
  have content := read_inheriting others (body (.many (spaced field))) name parent
    (fields.flatMap FieldTree.lexemes)
  simp only [PartTree.lexemes, List.cons_append, List.append_assoc]
  rw [dictionary, read_map, read_skipThen, read_spaced, read_keyword, scan_keyword,
    if_pos Keyword.dictionary.word_chars, Option.map_some, Option.bind_some, afterBlank_gap,
    content, readsBlock_field.read_body]
  split <;> rfl

/-- The word for a mixin is taken as the name of an interface, but no body stands behind it. -/
theorem read_interface_mixin (name : Identifier) (lexemes : List Lexeme) :
    grammar.read interface
      (written (.keyword .interface :: .keyword .mixin :: .name name :: lexemes)) = none := by
  have noColon : grammar.read (skipThen (spaced (symbol ':')) Idl.name)
      (written (.name name :: lexemes)) = none := by
    simp (disch := decide)
  simp (disch := decide) [interface, read_seq, inheritance, read_optional_of_none _ noColon,
    Idl.members, body]

theorem read_mixin_interface (name : Identifier) (lexemes : List Lexeme) :
    grammar.read mixin (written (.keyword .interface :: .name name :: lexemes)) = none := by
  simp [mixin, read_seq]

/-- A callback without the second word is no callback interface. -/
theorem read_callbackInterface_name (name : Identifier) (lexemes : List Lexeme) :
    grammar.read callbackInterface (written (.keyword .callback :: .name name :: lexemes)) =
      none := by
  simp [callbackInterface, read_seq]

/-- The word for an interface is taken as the name of a function. -/
theorem read_callbackFunction_interface (name : Identifier) (lexemes : List Lexeme) :
    grammar.read callbackFunction
      (written (.keyword .callback :: .keyword .interface :: .name name :: lexemes)) = none := by
  simp (disch := decide) [callbackFunction, read_seq]

/-- A part is read as its own alternative. -/
theorem read_partDefinition (content : PartTree) :
    grammar.read partDefinition (written (content.lexemes ++ others)) =
      if content.sound then some (content.declared, gap others) else none := by
  simp only [partDefinition, firstOf, read_choice]
  cases content with
  | interface name parent members =>
    rw [read_interface, PartTree.lexemes, List.cons_append, List.cons_append,
      read_mixin_interface, @read_of_keyword _ dictionary .dictionary rfl _ (by decide),
      @read_of_keyword _ namespaceDefinition .namespace rfl _ (by decide), Option.none_or,
      Option.or_none, Option.or_none]
    rfl
  | mixin name members =>
    rw [read_mixin]
    simp only [PartTree.lexemes, List.cons_append]
    rw [read_interface_mixin, @read_of_keyword _ dictionary .dictionary rfl _ (by decide),
      @read_of_keyword _ namespaceDefinition .namespace rfl _ (by decide), Option.or_none,
      Option.or_none, Option.or_none]
    rfl
  | «namespace» name members =>
    rw [read_namespaceDefinition, PartTree.lexemes, List.cons_append,
      @read_of_keyword _ mixin .interface rfl _ (by decide),
      @read_of_keyword _ interface .interface rfl _ (by decide),
      @read_of_keyword _ dictionary .dictionary rfl _ (by decide), Option.none_or, Option.none_or,
      Option.none_or]
    rfl
  | dictionary name parent fields =>
    rw [read_dictionary, PartTree.lexemes, List.cons_append,
      @read_of_keyword _ mixin .interface rfl _ (by decide),
      @read_of_keyword _ interface .interface rfl _ (by decide),
      @read_of_keyword _ namespaceDefinition .namespace rfl _ (by decide), Option.none_or,
      Option.none_or, Option.or_none]
    rfl

end Parts

/-! ### Alternatives -/

section Alternatives

variable (others : List Lexeme)

/-- A callback interface is read with its members, and no callback function in its place. -/
theorem read_callbackInterface (name : Identifier) (members : List MemberTree) :
    grammar.read interfaceDefinition
        (written ((DefinitionCore.callbackInterface name members).lexemes ++ others)) =
      if (DefinitionCore.callbackInterface name members).sound then
        some ((DefinitionCore.callbackInterface name members).declared, gap others)
      else none := by
  have content := read_named Idl.members name (membersLexemes members ++ others)
  have words : grammar.read (.seq (spaced (keyword .callback)) (spaced (keyword .interface)))
      (written (.keyword .callback :: .keyword .interface :: .name name ::
        (membersLexemes members ++ others))) =
      some ((Keyword.callback.spelling, Keyword.interface.spelling),
        written (.name name :: (membersLexemes members ++ others))) := by
    simp [read_seq]
  simp only [DefinitionCore.lexemes, List.cons_append, interfaceDefinition, firstOf, read_choice]
  rw [read_callbackFunction_interface, @read_of_keyword _ mixin .interface rfl _ (by decide),
    @read_of_keyword _ interface .interface rfl _ (by decide), Option.or_none, Option.or_none,
    Option.or_none, callbackInterface, read_map, read_skipThen, words, Option.bind_some, content,
    membersLexemes, read_members, DefinitionCore.sound]
  split <;> rfl

/-- A callback function is read when its type and its arguments are sound. -/
theorem read_callback (name : Identifier) (type : TypeTree) (parameters : List ArgumentTree) :
    grammar.read interfaceDefinition
        (written ((DefinitionCore.callback name type parameters).lexemes ++ others)) =
      if (DefinitionCore.callback name type parameters).sound then
        some ((DefinitionCore.callback name type parameters).declared, gap others)
      else none := by
  simp only [DefinitionCore.lexemes, List.cons_append, List.append_assoc, List.nil_append,
    interfaceDefinition, firstOf, read_choice]
  rw [read_callbackInterface_name, @read_of_keyword _ mixin .interface rfl _ (by decide),
    @read_of_keyword _ interface .interface rfl _ (by decide), Option.none_or, Option.or_none,
    Option.or_none, DefinitionCore.sound]
  by_cases isSound : type.sound = true
  · have follows : followsType (parameterLexemes parameters ++ .mark .semicolon :: others) =
        true := followsType_signature others none parameters
    by_cases argumentsSound : argumentsSound parameters = true <;>
      simp [callbackFunction, read_seq, follows, isSound, argumentsSound, Mark.char, semicolon,
        DefinitionCore.declared, Identifier.text, TypeTree.use]
  · have missing : grammar.read (.seq (spaced Idl.type)
        (thenSkip (spaced Idl.parameters) semicolon)) (written (type.lexemes ++
          (parameterLexemes parameters ++ .mark .semicolon :: others))) = none :=
      (typeStuck (eq_false_of_ne_true isSound) _).seq_none fun mark rest isLeft => by
        have noParenthesis : mark.char ≠ '(' := by
          revert isLeft
          cases mark <;> decide
        simp [Idl.parameters, noParenthesis]
    have opened (lexemes : List Lexeme) :
        grammar.read (thenSkip (spaced Idl.name) (spaced (symbol '=')))
          (written (.name name :: .mark .equals :: lexemes)) =
            some (name.text, written lexemes) := by
      simp [Mark.char, Identifier.text]
    rw [callbackFunction, read_map, read_skipThen, read_spaced, read_keyword, scan_keyword,
      if_pos Keyword.callback.word_chars, Option.map_some, Option.bind_some, afterBlank_gap,
      read_seq, opened, Option.bind_some, missing]
    simp [isSound]

/-- An enumeration is read with its values as they are quoted. -/
theorem read_enumeration (name : Identifier) (values : List Quotable) :
    grammar.read plainDefinition
        (written ((DefinitionCore.enumeration name values).lexemes ++ others)) =
      if (DefinitionCore.enumeration name values).sound then
        some ((DefinitionCore.enumeration name values).declared, gap others)
      else none := by
  have content := read_named (body (thenSkip (separated comma enumerationValue)
    (spaced (.optional (skipThen blank (symbol ',')))))) name
      (bodyLexemes (valuesLexemes values) ++ others)
  simp only [DefinitionCore.lexemes, List.cons_append, plainDefinition, firstOf, read_choice]
  rw [@read_of_keyword _ namespaceDefinition .namespace rfl _ (by decide),
    @read_of_keyword _ dictionary .dictionary rfl _ (by decide),
    @read_of_keyword _ typedef .typedef rfl _ (by decide), read_inclusion_none _ (by simp),
    Option.none_or, Option.none_or, Option.or_none, Option.or_none, enumeration, read_map,
    read_skipThen, read_spaced, read_keyword, scan_keyword,
    if_pos Keyword.enumeration.word_chars, Option.map_some, Option.bind_some, afterBlank_gap,
    content, read_values, DefinitionCore.sound]
  cases values <;> rfl

/-- A type definition is read when its type is sound. -/
theorem read_typedef (type : TypeTree) (name : Identifier) :
    grammar.read plainDefinition
        (written ((DefinitionCore.typedef type name).lexemes ++ others)) =
      if (DefinitionCore.typedef type name).sound then
        some ((DefinitionCore.typedef type name).declared, gap others)
      else none := by
  simp only [DefinitionCore.lexemes, List.cons_append, List.append_assoc, List.nil_append,
    DefinitionCore.sound, plainDefinition, firstOf, read_choice]
  rw [@read_of_keyword _ namespaceDefinition .namespace rfl _ (by decide),
    @read_of_keyword _ dictionary .dictionary rfl _ (by decide),
    @read_of_keyword _ enumeration .enumeration rfl _ (by decide),
    read_inclusion_none _ (scan_keyword_type _ .includes type), Option.none_or, Option.none_or,
    Option.none_or, Option.or_none]
  by_cases isSound : type.sound = true
  · simp [typedef, read_seq, isSound, semicolon, Mark.char, DefinitionCore.declared,
      Identifier.text, TypeTree.use]
  · have missing : grammar.read (.seq (spaced Idl.type) (thenSkip (spaced Idl.name) semicolon))
        (written (type.lexemes ++ .name name :: .mark .semicolon :: others)) = none :=
      (typeStuck (eq_false_of_ne_true isSound) _).seq_none fun mark rest _ => by simp
    simp [typedef, missing, isSound]

/-- No other definition begins with an identifier. -/
theorem read_inclusion (target source : Identifier) :
    grammar.read plainDefinition
        (written ((DefinitionCore.inclusion target source).lexemes ++ others)) =
      some ((DefinitionCore.inclusion target source).declared, gap others) := by
  simp only [DefinitionCore.lexemes, List.cons_append, List.nil_append, plainDefinition, firstOf,
    read_choice]
  rw [@read_of_name _ namespaceDefinition .namespace rfl,
    @read_of_name _ dictionary .dictionary rfl, @read_of_name _ enumeration .enumeration rfl,
    @read_of_name _ typedef .typedef rfl]
  simp [inclusion, read_seq, semicolon, Mark.char, DefinitionCore.declared, Identifier.text]

/-- No definition with members starts with an identifier. -/
theorem read_interfaceDefinition_name (name : Identifier) (lexemes : List Lexeme) :
    grammar.read interfaceDefinition (written (.name name :: lexemes)) = none := by
  simp only [interfaceDefinition, firstOf, read_choice]
  rw [@read_of_name _ callbackInterface .callback rfl,
    @read_of_name _ callbackFunction .callback rfl, @read_of_name _ mixin .interface rfl,
    @read_of_name _ interface .interface rfl]
  rfl

end Alternatives

/-! ### Places of definitions -/

section Places

variable {others : List Lexeme} {phrase : Phrase Definition} {lexemes : List Lexeme}

/-- A located phrase is found where it begins. -/
theorem read_located (nonempty : lexemes ≠ []) {isSound : Bool} {definition : Definition}
    (found : grammar.read phrase (written (lexemes ++ others)) =
      if isSound then some (definition, gap others) else none) :
    grammar.read (located phrase) (written (lexemes ++ others)) =
      if isSound then some (⟨0, lineFeeds lexemes, definition⟩, gap others) else none := by
  rw [located, read_map, read_source, found]
  split
  · simp [consumed_gap nonempty]
  · rfl

/-- A definition that is not read has no place. -/
theorem read_located_none {text : List Char} (missing : grammar.read phrase text = none) :
    grammar.read (located phrase) text = none := by
  rw [located, read_map, read_source, missing]
  rfl

/-- A declaration is tried in three groups, in the order of the grammar. -/
theorem declaration_eq (text : List Char) :
    grammar.read declaration text =
      (grammar.read (located interfaceDefinition) text).or
        ((grammar.read partialDefinition text).or
          (grammar.read (located plainDefinition) text)) := by
  rw [← read_choice, ← read_choice]
  rfl

end Places

/-! ### Declarations -/

section Declarations

variable (others : List Lexeme)

section Words

variable {word : Keyword} {others : List Lexeme}
  (noIncludes : grammar.scan (.keyword .includes) (written others) = none)

include noIncludes

/-- Behind the words of the first group only this group can succeed. -/
theorem read_declaration_interface (isWord : word = .callback ∨ word = .interface) :
    grammar.read declaration (written (.keyword word :: others)) =
      grammar.read (located interfaceDefinition) (written (.keyword word :: others)) := by
  have notPartial : word ≠ .partial := by rcases isWord with rfl | rfl <;> decide
  have notPlain : word ∉ [Keyword.namespace, .dictionary, .enumeration, .typedef] := by
    rcases isWord with rfl | rfl <;> decide
  rw [declaration_eq, @read_of_keyword _ partialDefinition .partial rfl _ notPartial,
    read_located_none (read_plainDefinition_keyword notPlain noIncludes), Option.or_none,
    Option.or_none]

omit noIncludes in
/-- Behind the words of the last group only this group can succeed. -/
theorem read_declaration_plain
    (isWord : word ∈ [Keyword.namespace, .dictionary, .enumeration, .typedef]) :
    grammar.read declaration (written (.keyword word :: others)) =
      grammar.read (located plainDefinition) (written (.keyword word :: others)) := by
  have different {other : Keyword}
      (apart : other ∉ [Keyword.namespace, .dictionary, .enumeration, .typedef]) :
      word ≠ other := by
    rintro rfl
    exact apart isWord
  rw [declaration_eq, read_located_none (read_interfaceDefinition_keyword
    (different (by decide)) (different (by decide))),
    @read_of_keyword _ partialDefinition .partial rfl _ (different (by decide)), Option.none_or,
    Option.none_or]

/-- Behind the word for a part only partial definitions can succeed. -/
theorem read_declaration_partial :
    grammar.read declaration (written (.keyword .partial :: others)) =
      grammar.read partialDefinition (written (.keyword .partial :: others)) := by
  rw [declaration_eq, read_located_none (read_interfaceDefinition_keyword (by decide) (by decide)),
    read_located_none (read_plainDefinition_keyword (by decide) noIncludes), Option.none_or,
    Option.or_none]

end Words

/-- A part begins with a word of its own, and no inclusion begins there. -/
theorem PartTree.lexemes_eq (content : PartTree) :
    ∃ word rest, content.lexemes = .keyword word :: rest ∧
      (word = .interface ∨ word = .namespace ∨ word = .dictionary) ∧
      ∀ others, grammar.scan (.keyword .includes) (written (rest ++ others)) = none := by
  cases content with
  | interface name parent members => exact ⟨_, _, rfl, .inl rfl, fun _ => by simp⟩
  | mixin name members => exact ⟨_, _, rfl, .inl rfl, fun _ => by simp⟩
  | «namespace» name members => exact ⟨_, _, rfl, .inr (.inl rfl), fun _ => by simp⟩
  | dictionary name parent fields => exact ⟨_, _, rfl, .inr (.inr rfl), fun _ => by simp⟩

theorem PartTree.lexemes_ne_nil (content : PartTree) : content.lexemes ≠ [] := by
  obtain ⟨word, rest, same, -⟩ := content.lexemes_eq
  simp [same]

/-- A complete definition is read like a part. -/
theorem read_interfaceDefinition_part (lexemes : List Lexeme) :
    grammar.read interfaceDefinition (written (.keyword .interface :: lexemes)) =
      grammar.read partDefinition (written (.keyword .interface :: lexemes)) := by
  simp only [interfaceDefinition, partDefinition, firstOf, read_choice]
  rw [@read_of_keyword _ callbackInterface .callback rfl _ (by decide),
    @read_of_keyword _ callbackFunction .callback rfl _ (by decide),
    @read_of_keyword _ dictionary .dictionary rfl _ (by decide),
    @read_of_keyword _ namespaceDefinition .namespace rfl _ (by decide)]
  simp

/-- Namespaces and dictionaries are read alike, whole or in part. -/
theorem read_plainDefinition_part {word : Keyword}
    (isWord : word = .namespace ∨ word = .dictionary) {lexemes : List Lexeme}
    (noIncludes : grammar.scan (.keyword .includes) (written lexemes) = none) :
    grammar.read plainDefinition (written (.keyword word :: lexemes)) =
      grammar.read partDefinition (written (.keyword word :: lexemes)) := by
  simp only [plainDefinition, partDefinition, firstOf, read_choice]
  rw [read_inclusion_none word.word noIncludes]
  rcases isWord with rfl | rfl
  · rw [@read_of_keyword _ dictionary .dictionary rfl _ (by decide),
      @read_of_keyword _ enumeration .enumeration rfl _ (by decide),
      @read_of_keyword _ typedef .typedef rfl _ (by decide),
      @read_of_keyword _ mixin .interface rfl _ (by decide),
      @read_of_keyword _ interface .interface rfl _ (by decide)]
    simp
  · rw [@read_of_keyword _ namespaceDefinition .namespace rfl _ (by decide),
      @read_of_keyword _ enumeration .enumeration rfl _ (by decide),
      @read_of_keyword _ typedef .typedef rfl _ (by decide),
      @read_of_keyword _ mixin .interface rfl _ (by decide),
      @read_of_keyword _ interface .interface rfl _ (by decide)]
    simp

/-- A whole definition is found at its own start, over as many lines as it has. -/
theorem read_complete (content : PartTree) :
    grammar.read declaration (written (content.lexemes ++ others)) =
      if content.sound then some (⟨0, lineFeeds content.lexemes, content.declared⟩, gap others)
      else none := by
  have found := read_partDefinition others content
  obtain ⟨word, rest, same, isWord, noIncludes⟩ := content.lexemes_eq
  have lexemes : content.lexemes ++ others = .keyword word :: (rest ++ others) := by
    rw [same, List.cons_append]
  rcases isWord with rfl | isWord
  · have asInterface := read_interfaceDefinition_part (rest ++ others)
    have declared := read_declaration_interface (noIncludes others) (.inr rfl)
    rw [← lexemes] at asInterface declared
    rw [found] at asInterface
    rw [declared]
    exact read_located content.lexemes_ne_nil asInterface
  · have asPlain := read_plainDefinition_part isWord (noIncludes others)
    have declared := @read_declaration_plain word (rest ++ others)
      (by rcases isWord with rfl | rfl <;> decide)
    rw [← lexemes] at asPlain declared
    rw [found] at asPlain
    rw [declared]
    exact read_located content.lexemes_ne_nil asPlain

/-- A part is read as the whole definition is, and marked as a part. -/
theorem read_partial (content : PartTree) :
    grammar.read declaration (written (.keyword .partial :: (content.lexemes ++ others))) =
      if content.sound then
        some (⟨0, lineFeeds content.lexemes, content.declared.asPartial⟩, gap others)
      else none := by
  have noIncludes : grammar.scan (.keyword .includes) (written (content.lexemes ++ others)) =
      none := by
    obtain ⟨word, rest, same, isWord, -⟩ := content.lexemes_eq
    rw [same, List.cons_append, scan_keyword, if_neg]
    rcases isWord with rfl | rfl | rfl <;> decide
  have lead : grammar.read (.source (spaced (keyword .partial)))
      (written (.keyword .partial :: (content.lexemes ++ others))) =
        some ((consumed (written (.keyword .partial :: (content.lexemes ++ others)))
          (written (content.lexemes ++ others)), Keyword.partial.spelling),
          written (content.lexemes ++ others)) := by
    simp
  have lines : Text.newlines (consumed (written (.keyword .partial :: (content.lexemes ++ others)))
      (written (content.lexemes ++ others))) = 0 :=
    newlines_consumed_written [.keyword .partial] (content.lexemes ++ others)
  have found := read_located content.lexemes_ne_nil (read_partDefinition others content)
  rw [read_declaration_partial noIncludes, partialDefinition, read_map, read_seq, lead,
    Option.bind_some]
  change (Option.map _ (Option.map _ (grammar.read (located partDefinition) _))) = _
  rw [found]
  split
  · simp [lines]
  · rfl

/-- A declaration is read when everything in it is sound. -/
theorem read_declaration (core : DefinitionCore) :
    grammar.read declaration (written (core.lead ++ (core.lexemes ++ others))) =
      if core.sound then some (⟨0, lineFeeds core.lexemes, core.declared⟩, gap others)
      else none := by
  cases core with
  | complete content => exact read_complete others content
  | «partial» content => exact read_partial others content
  | callbackInterface name members =>
    have declared := @read_declaration_interface .callback
      (.keyword .interface :: .name name :: (membersLexemes members ++ others)) (by simp) (.inl rfl)
    exact declared.trans (read_located (List.cons_ne_nil _ _)
      (read_callbackInterface others name members))
  | callback name type parameters =>
    have declared := @read_declaration_interface .callback
      (.name name :: .mark .equals ::
        (type.lexemes ++ (parameterLexemes parameters ++ [.mark .semicolon]) ++ others))
      (by simp) (.inl rfl)
    exact declared.trans (read_located (List.cons_ne_nil _ _)
      (read_callback others name type parameters))
  | enumeration name values =>
    exact (read_declaration_plain (by decide)).trans (read_located (List.cons_ne_nil _ _)
      (read_enumeration others name values))
  | typedef type name =>
    exact (read_declaration_plain (by decide)).trans (read_located (List.cons_ne_nil _ _)
      (read_typedef others type name))
  | inclusion target source =>
    have noInterface : grammar.read (located interfaceDefinition)
        (written ((DefinitionCore.inclusion target source).lexemes ++ others)) = none :=
      read_located_none (read_interfaceDefinition_name target _)
    have noPartial : grammar.read partialDefinition
        (written ((DefinitionCore.inclusion target source).lexemes ++ others)) = none :=
      @read_of_name _ partialDefinition .partial rfl target _
    have found := @read_located others plainDefinition
      (DefinitionCore.inclusion target source).lexemes (List.cons_ne_nil _ _) true _
      (read_inclusion others target source)
    change grammar.read declaration
      (written ((DefinitionCore.inclusion target source).lexemes ++ others)) = _
    rw [declaration_eq, noInterface, noPartial, found]
    rfl

/-! ### Definitions -/

/-- No declaration begins with a bracket. -/
theorem read_declaration_bracket (lexemes : List Lexeme) :
    grammar.read declaration (written (.mark .openBracket :: lexemes)) = none := by
  have missing {Value : Type} {phrase : Phrase Value} {word : Keyword}
      (starts : phrase.StartsWith (.keyword word)) :
      grammar.read phrase (written (.mark .openBracket :: lexemes)) = none :=
    read_of_startsWith starts (scan_keyword_mark lexemes word .openBracket)
  have noInclusion : grammar.read inclusion (written (.mark .openBracket :: lexemes)) = none := by
    simp [inclusion, read_seq]
  have noInterface : grammar.read interfaceDefinition
      (written (.mark .openBracket :: lexemes)) = none := by
    simp only [interfaceDefinition, firstOf, read_choice]
    rw [@missing _ callbackInterface .callback rfl, @missing _ callbackFunction .callback rfl,
      @missing _ mixin .interface rfl, @missing _ interface .interface rfl]
    rfl
  have noPlain : grammar.read plainDefinition (written (.mark .openBracket :: lexemes)) =
      none := by
    simp only [plainDefinition, firstOf, read_choice]
    rw [@missing _ namespaceDefinition .namespace rfl, @missing _ dictionary .dictionary rfl,
      @missing _ enumeration .enumeration rfl, @missing _ typedef .typedef rfl, noInclusion]
    rfl
  rw [declaration_eq, read_located_none noInterface, read_located_none noPlain,
    @missing _ partialDefinition .partial rfl]
  rfl

/-- A definition without attributes starts with no bracket. -/
theorem DefinitionCore.scan_bracket (core : DefinitionCore) :
    grammar.scan (.symbol '[') (written (core.lead ++ (core.lexemes ++ others))) = none := by
  have word (first : Word) (lexemes : List Lexeme) :
      grammar.scan (.symbol '[') (written (.word first :: lexemes)) = none :=
    scan_symbol_word lexemes (by decide) first
  cases core with
  | complete content =>
    obtain ⟨first, rest, same, -⟩ := content.lexemes_eq
    change grammar.scan _ (written (content.lexemes ++ others)) = none
    rw [same]
    exact word _ _
  | «partial» | callbackInterface | callback | enumeration | typedef | inclusion => exact word _ _

/-- A definition is read with its extended attributes when both are sound. -/
theorem read_definition (tree : DefinitionTree) :
    grammar.read definition (written (tree.lexemes ++ others)) =
      if tree.sound then some (tree.found, gap others) else none := by
  obtain ⟨extAttrs, core⟩ := tree
  have declared := read_declaration others core
  have noBracket := core.scan_bracket others
  simp only [DefinitionTree.lexemes, List.append_assoc, DefinitionTree.sound,
    DefinitionTree.found]
  generalize core.lead ++ (core.lexemes ++ others) = lexemes at declared noBracket
  rw [definition, read_map, read_seq, read_source]
  cases extAttrs with
  | nil =>
    have missing : grammar.read (spaced (.rule .extAttrs)) (written lexemes) = none := by
      rw [read_spaced, read_extAttrs_eq, read_extAttrSection_none noBracket]
      rfl
    simp only [sectionLexemes, List.nil_append, read_optional_of_none _ missing, declared,
      Option.map_some, Option.bind_some, extAttrsSound, Bool.true_and]
    split
    · simp [consumed, Text.newlines, lineFeeds]
    · rfl
  | cons extAttr extAttrs =>
    have found := @read_extAttrSection lexemes extAttr extAttrs fun other _ => readsExtAttr other
    by_cases isSound : extAttrsSound (extAttr :: extAttrs) = true
    · have present : grammar.read (spaced (.rule .extAttrs))
          (written (sectionLexemes (extAttr :: extAttrs) ++ lexemes)) =
            some ((extAttr :: extAttrs).map ExtAttrTree.text, written lexemes) := by
        rw [read_spaced, read_extAttrs_eq, found, if_pos isSound]
        simp
      rw [read_optional_of_some _ present, Option.map_some, Option.bind_some, declared]
      by_cases coreSound : core.sound = true <;> simp [isSound, coreSound]
    · have missing : grammar.read (spaced (.rule .extAttrs))
          (written (sectionLexemes (extAttr :: extAttrs) ++ lexemes)) = none := by
        rw [read_spaced, read_extAttrs_eq, found, if_neg isSound]
        rfl
      have noDeclaration : grammar.read declaration
          (written (sectionLexemes (extAttr :: extAttrs) ++ lexemes)) = none :=
        read_declaration_bracket _
      rw [read_optional_of_none _ missing, Option.map_some, Option.bind_some, noDeclaration]
      simp [isSound]

end Declarations

end InterfaceAudit.Idl
