import InterfaceAudit.Proofs.Idl.Written.Argument

/-!
Sections of extended attributes and parameters in a written text.
What is not sound inside of a section or of parameters leaves them open, so neither they nor
anything around them is read.
-/

namespace InterfaceAudit.Idl

open Grammar
open Grammar.Expression (skipThen thenSkip firstOf separated)

/-! ### Sections -/

/-- A phrase that may have extended attributes begins with no bracket itself. -/
def FailsAtBracket {Value : Type} (phrase : Phrase Value) : Prop :=
  ∀ {others : List Lexeme},
    grammar.read extAttrSection (written (.mark .openBracket :: others)) = none →
      grammar.read phrase (written (.mark .openBracket :: others)) = none

/-- No form of an argument starts with a bracket. -/
theorem failsAtBracket_argument : FailsAtBracket argumentAlternatives := by
  intro others missing
  have noType := read_type_mark (by decide) missing
  simp [argumentAlternatives, firstOf, read_choice, read_seq, optionalArgument, variadicArgument,
    requiredArgument, noType]

/-- The extended attribute is read in front of a comma or the closing bracket. -/
abbrev ReadsExtAttr : ExtAttrTree → Prop :=
  ReadsItem extAttr ExtAttrTree.lexemes ExtAttrTree.sound ExtAttrTree.text .closeBracket

/-- The argument is read in front of a comma or the closing parenthesis. -/
abbrev ReadsArgument : ArgumentTree → Prop :=
  ReadsItem argument ArgumentTree.lexemes ArgumentTree.sound ArgumentTree.declared
    .closeParenthesis

section Sections

variable {others : List Lexeme}

/-- A section is read when all its extended attributes are sound. -/
theorem read_extAttrSection {extAttr : ExtAttrTree} {extAttrs : List ExtAttrTree}
    (reads : ∀ other ∈ extAttr :: extAttrs, ReadsExtAttr other) :
    grammar.read extAttrSection (written (sectionLexemes (extAttr :: extAttrs) ++ others)) =
      if extAttrsSound (extAttr :: extAttrs) then
        some ((extAttr :: extAttrs).map ExtAttrTree.text, gap others)
      else none := by
  have closed := @read_separated_closed _ _ _ _ _ _ _ _ _ others reads (by decide)
  rw [extAttrsSound_eq, ← closed]
  simp [extAttrSection, sectionLexemes, extAttrsBehind_eq, Mark.char]

theorem read_extAttrs_eq (text : List Char) :
    grammar.read (.rule .extAttrs) text = grammar.read extAttrSection text :=
  progressive.read_rule .extAttrs text

/-- Extended attributes are read in front of their phrase when they are sound. -/
theorem read_attributed_of_reads {Value : Type} {phrase : Phrase Value}
    (fails : FailsAtBracket phrase) {extAttrs : List ExtAttrTree}
    (reads : ∀ extAttr ∈ extAttrs, ReadsExtAttr extAttr)
    (noBracket : grammar.scan (.symbol '[') (written others) = none) :
    grammar.read (attributed phrase) (written (sectionLexemes extAttrs ++ others)) =
      if extAttrsSound extAttrs then
        (grammar.read phrase (written others)).map fun reading =>
          ((extAttrs.map ExtAttrTree.text, reading.1), reading.2)
      else none := by
  cases extAttrs with
  | nil =>
    have missing : grammar.read (spaced (.rule .extAttrs)) (written others) = none := by
      rw [read_spaced, read_extAttrs_eq, read_extAttrSection_none noBracket]
      rfl
    simp only [sectionLexemes, List.nil_append, attributed, read_map, read_seq,
      read_optional_of_none _ missing, extAttrsSound, Option.bind_some, if_true]
    cases grammar.read phrase (written others) <;> rfl
  | cons extAttr extAttrs =>
    have found := @read_extAttrSection others extAttr extAttrs reads
    split at found
    · next isSound =>
      have present : grammar.read (spaced (.rule .extAttrs))
          (written (sectionLexemes (extAttr :: extAttrs) ++ others)) =
            some ((extAttr :: extAttrs).map ExtAttrTree.text, written others) := by
        rw [read_spaced, read_extAttrs_eq, found]
        simp
      rw [if_pos isSound, attributed, read_map, read_seq, read_optional_of_some _ present,
        Option.bind_some]
      cases grammar.read phrase (written others) <;> rfl
    · next unsound =>
      have missing : grammar.read (spaced (.rule .extAttrs))
          (written (sectionLexemes (extAttr :: extAttrs) ++ others)) = none := by
        rw [read_spaced, read_extAttrs_eq, found]
        rfl
      have phraseMissing : grammar.read phrase
          (written (sectionLexemes (extAttr :: extAttrs) ++ others)) = none := fails found
      rw [if_neg unsound, attributed, read_map, read_seq, read_optional_of_none _ missing,
        Option.bind_some, phraseMissing]
      rfl

end Sections

/-! ### Parameters -/

theorem argument_eq : argument =
    .map (fun (extAttrs, argument) => { argument with extAttrs })
      (attributed argumentAlternatives) := rfl

/-- Extended attributes begin with a bracket. -/
theorem scan_symbol_section {mark : Char} (notBracket : '[' ≠ mark) (extAttrs : List ExtAttrTree)
    {others : List Lexeme} (missing : grammar.scan (.symbol mark) (written others) = none) :
    grammar.scan (.symbol mark) (written (sectionLexemes extAttrs ++ others)) = none := by
  cases extAttrs with
  | nil => exact missing
  | cons extAttr extAttrs => simp [sectionLexemes, Mark.char, notBracket]

section Symbols

variable (others : List Lexeme) {mark : Char} (notPart : isTokenPart mark = false)

include notPart

/-- An argument without attributes starts with its type or with a word. -/
theorem scan_symbol_core (notParenthesis : '(' ≠ mark) (core : ArgumentCore) :
    grammar.scan (.symbol mark) (written (core.lexemes ++ others)) = none := by
  cases core with
  | required | variadic | optional => simp [ArgumentCore.lexemes, notPart, notParenthesis]

/-- An argument starts with its attributes, its type or a word. -/
theorem scan_symbol_argument (notParenthesis : '(' ≠ mark) (notBracket : '[' ≠ mark)
    (argument : ArgumentTree) :
    grammar.scan (.symbol mark) (written (argument.lexemes ++ others)) = none := by
  obtain ⟨extAttrs, core⟩ := argument
  rw [ArgumentTree.lexemes, List.append_assoc]
  exact scan_symbol_section notBracket extAttrs
    (scan_symbol_core others notPart notParenthesis core)

end Symbols

/-- No argument starts with the parenthesis that closes the list. -/
theorem read_argument_none {others : List Lexeme} :
    grammar.read argument (written (.mark .closeParenthesis :: others)) = none := by
  have noSection : grammar.read extAttrSection
      (written (.mark .closeParenthesis :: others)) = none :=
    read_extAttrSection_none (by simp [Mark.char])
  have noType := read_type_mark (by decide) noSection
  have missing : grammar.read (spaced (.rule .extAttrs))
      (written (.mark .closeParenthesis :: others)) = none := by
    rw [read_spaced, read_extAttrs_eq, noSection]
    rfl
  simp [argument_eq, attributed, read_seq, read_optional_of_none _ missing, argumentAlternatives,
    firstOf, read_choice, optionalArgument, variadicArgument, requiredArgument, noType]

/-- A phrase that is found is read through the option and the blank around it. -/
theorem read_optional_spaced {Value Result : Type} {phrase : Phrase Value}
    (build : Option Value → Result) {text rest : List Char} {value : Value}
    (found : grammar.read (spaced phrase) text = some (value, rest)) :
    grammar.read (spaced (.map build (.optional phrase))) text =
      some (build (some value), rest) := by
  rw [read_spaced, Option.map_eq_some_iff] at found
  obtain ⟨⟨other, last⟩, read, same⟩ := found
  obtain ⟨rfl, rfl⟩ := Prod.mk.inj same
  simp [read_optional_of_some _ read]

/-- Parameters are read when all of them are sound. -/
theorem read_parameters_of_reads {arguments : List ArgumentTree}
    (reads : ∀ argument ∈ arguments, ReadsArgument argument) (others : List Lexeme) :
    grammar.read parameters (written (parameterLexemes arguments ++ others)) =
      if argumentsSound arguments then some (arguments.map ArgumentTree.declared, gap others)
      else none := by
  cases arguments with
  | nil =>
    have missing : grammar.read (separated comma argument)
        (written (.mark .closeParenthesis :: others)) = none := by
      simp [separated, read_seq, read_argument_none]
    simp [parameters, parameterLexemes, Mark.char, argumentsSound,
      read_optional_of_none _ missing]
  | cons first arguments =>
    have opened : grammar.read parameters
        (written (parameterLexemes (first :: arguments) ++ others)) =
      grammar.read (thenSkip (spaced (.map (·.getD []) (.optional (separated comma argument))))
          (symbol ')'))
        (written (first.lexemes ++ (behindCommas ArgumentTree.lexemes arguments ++
          .mark .closeParenthesis :: others))) := by
      simp [parameters, parameterLexemes, Mark.char, argumentsBehind_eq]
    rw [opened, argumentsSound_eq]
    split
    · next allSound =>
      have found := @read_separated _ _ _ _ _ _ _ _ _ others reads (by decide)
        (List.all_eq_true.mp allSound)
      rw [read_thenSkip, read_optional_spaced _ found]
      simp [Mark.char]
    · next notAll =>
      simp only [List.all_eq_true, not_forall, Bool.not_eq_true] at notAll
      obtain ⟨other, member, unsound⟩ := notAll
      rw [read_thenSkip, read_spaced, read_map]
      cases found : grammar.read (separated comma argument)
          (written (first.lexemes ++ (behindCommas ArgumentTree.lexemes arguments ++
            .mark .closeParenthesis :: others))) with
      | none =>
        have noClosing := scan_symbol_argument (behindCommas ArgumentTree.lexemes arguments ++
          .mark .closeParenthesis :: others) (show isTokenPart ')' = false by decide) (by decide)
          (by decide) first
        simp [read_optional_of_none _ found, noClosing]
      | some reading =>
        obtain ⟨values, last⟩ := reading
        have apart := @read_separated_unsound _ _ _ _ _ _ _ _ _ others reads (by decide)
          ⟨other, member, unsound⟩ values (afterBlank last) (by rw [read_spaced, found]; rfl)
        have noClosing : grammar.scan (.symbol ')') (afterBlank last) = none :=
          scan_symbol_of_head apart
        simp [read_optional_of_some _ found, noClosing]

/-! ### Extended attributes -/

/-- The right side of an extended attribute has been read up to the lexemes behind it. -/
def RightRead (lexemes others : List Lexeme) : Prop :=
  ∃ value last, grammar.read (.optional extAttrRight) (written (lexemes ++ others)) =
      some (value, last) ∧ (last = written others ∨ last = gap others)

/-- Behind what was read of the right side stands neither a comma nor a closing bracket. -/
def RightStuck (lexemes others : List Lexeme) : Prop :=
  ∃ value last, grammar.read (.optional extAttrRight) (written (lexemes ++ others)) =
      some (value, last) ∧ (afterBlank last).head? ≠ some ',' ∧ (afterBlank last).head? ≠ some ']'

/-- An attribute is read as its glued pieces once its right side is. -/
theorem read_extAttr_of_right {name : Identifier} {lexemes others : List Lexeme}
    (right : RightRead lexemes others) :
    grammar.read (spaced extAttr) (written (.name name :: (lexemes ++ others))) =
      some (String.ofList (spelled (.name name :: lexemes)), written others) := by
  obtain ⟨value, last, found, ends⟩ := right
  have nonempty : Lexeme.name name :: lexemes ≠ [] := List.cons_ne_nil _ _
  have inner : grammar.read (.seq (spaced Idl.name) (.optional extAttrRight))
      (written (.name name :: (lexemes ++ others))) =
        some ((String.ofList name.chars, value), last) := by
    simp [read_seq, found]
  rw [extAttr, read_spaced, read_map, read_source, inner]
  rw [← List.cons_append]
  rcases ends with rfl | rfl
  · simp only [Option.map_some, squeezed, squeeze_consumed_written nonempty, afterBlank_written]
  · simp only [Option.map_some, squeezed, consumed_gap nonempty, squeeze_written, afterBlank_gap]

/-- An attribute stops where its right side stops. -/
theorem stuck_extAttr_of_right {name : Identifier} {lexemes others : List Lexeme}
    (right : RightStuck lexemes others) :
    Stuck .closeBracket
      (grammar.read (spaced extAttr) (written (.name name :: (lexemes ++ others)))) := by
  obtain ⟨value, last, found, apart⟩ := right
  have inner : grammar.read (.seq (spaced Idl.name) (.optional extAttrRight))
      (written (.name name :: (lexemes ++ others))) =
        some ((String.ofList name.chars, value), last) := by
    simp [read_seq, found]
  intro text rest read
  rw [extAttr, read_spaced, read_map, read_source, inner] at read
  rw [← (Prod.mk.inj (Option.some.inj read)).2]
  exact apart

/-- A parenthesis, a sign of equality or nothing opens the right side. -/
theorem read_extAttrRight_eq (text : List Char) :
    grammar.read extAttrRight text =
      ((grammar.read parameters text).map fun reading => ((), reading.2)).or
        ((grammar.read (skipThen (spaced (symbol '=')) (.seq (spaced extAttrValue)
          (.optional parameters))) text).map fun reading => ((), reading.2)) := by
  rw [extAttrRight, read_choice, read_map, read_map]

/-- Without a parenthesis there are no parameters. -/
theorem read_parameters_none {text : List Char}
    (noParenthesis : grammar.scan (.symbol '(') text = none) :
    grammar.read parameters text = none := by
  simp [parameters, noParenthesis]

section Right

variable {others : List Lexeme}

/-- Behind an attribute of a section stands neither a parenthesis nor an equals sign. -/
theorem EndsItem.no_parenthesis (ends : EndsItem .closeBracket others) :
    grammar.scan (.symbol '(') (written others) = none ∧
      grammar.scan (.symbol '=') (written others) = none := by
  cases ends <;> simp [Mark.char]

/-- An attribute may end behind its name. -/
theorem rightRead_none (ends : EndsItem .closeBracket others) : RightRead [] others := by
  have noParameters := read_parameters_none ends.no_parenthesis.1
  have missing : grammar.read extAttrRight (written others) = none := by
    simp [read_extAttrRight_eq, noParameters, ends.no_parenthesis.2]
  exact ⟨none, written others, read_optional_of_none _ missing, .inl rfl⟩

/-- Behind a sound value parameters may stand. -/
theorem read_right_value {value : ExtAttrValue} (isSound : value.sound = true) :
    grammar.read extAttrRight (written (.mark .equals :: (value.lexemes ++ others))) =
      (grammar.read (.optional parameters) (written others)).map fun reading =>
        ((), reading.2) := by
  have noParameters : grammar.read parameters
      (written (.mark .equals :: (value.lexemes ++ others))) = none :=
    read_parameters_none (by simp [Mark.char])
  have found := read_extAttrValue others isSound
  rw [read_extAttrRight_eq, noParameters]
  simp only [Option.map_none, Option.none_or]
  simp only [read_skipThen, read_spaced, read_symbol, scan_symbol_mark, Mark.char, if_true,
    Option.map_some, Option.bind_some, afterBlank_gap, read_seq, found]
  cases grammar.read (.optional parameters) (written others) <;> rfl

/-- A sound value is read as the right side. -/
theorem rightRead_value (ends : EndsItem .closeBracket others) {value : ExtAttrValue}
    (isSound : value.sound = true) : RightRead (.mark .equals :: value.lexemes) others := by
  have noParameters := read_parameters_none ends.no_parenthesis.1
  have found := @read_right_value others value isSound
  rw [read_optional_of_none _ noParameters] at found
  exact ⟨_, _, read_optional_of_some _ found, .inl rfl⟩

/-- The sign of equality stays in front of a list that is not sound, and the end of an identifier
that begins like a number stays behind the number. -/
theorem rightStuck_value {value : ExtAttrValue} (unsound : value.sound = false) :
    RightStuck (.mark .equals :: value.lexemes) others := by
  have noParameters : grammar.read parameters
      (written (.mark .equals :: (value.lexemes ++ others))) = none :=
    read_parameters_none (by simp [Mark.char])
  have right : grammar.read extAttrRight
      (written (.mark .equals :: (value.lexemes ++ others))) =
        (grammar.read (.seq (spaced extAttrValue) (.optional parameters))
          (written (value.lexemes ++ others))).map fun reading => ((), reading.2) := by
    simp [read_extAttrRight_eq, noParameters, Mark.char]
  rcases read_extAttrValue_unsound others unsound with
    missing | ⟨taken, first, rest, found, wordChar⟩
  · rw [read_seq, read_spaced, missing] at right
    refine ⟨_, _, read_optional_of_none _ right, ?_⟩
    rw [List.cons_append, afterBlank_written]
    simp [written, Lexeme.chars, Mark.char]
  · have noMark (mark : Mark) : (first :: rest).head? ≠ some mark.char := by
      simpa using ne_mark_of_isWordChar wordChar mark
    have noMore : grammar.read parameters (first :: rest) = none :=
      read_parameters_none (scan_symbol_of_head (noMark .openParenthesis))
    rw [read_seq, read_spaced, found, Option.map_some, Option.bind_some,
      afterBlank_wordChar rest wordChar, read_optional_of_none _ noMore] at right
    refine ⟨_, _, read_optional_of_some _ right, ?_⟩
    rw [afterBlank_wordChar rest wordChar]
    exact ⟨noMark .comma, noMark .closeBracket⟩

section Parameters

variable {arguments : List ArgumentTree}
  (reads : ∀ argument ∈ arguments, ReadsArgument argument)

theorem head_parameterLexemes (arguments : List ArgumentTree) :
    (written (parameterLexemes arguments ++ others)).head? = some '(' := by
  cases arguments <;> rfl

include reads

/-- Sound parameters are read as the right side. -/
theorem rightRead_parameters (isSound : argumentsSound arguments = true) :
    RightRead (parameterLexemes arguments) others := by
  have found := read_parameters_of_reads reads others
  rw [if_pos isSound] at found
  have right : grammar.read extAttrRight (written (parameterLexemes arguments ++ others)) =
      some ((), gap others) := by
    rw [read_extAttrRight_eq, found]
    rfl
  exact ⟨_, _, read_optional_of_some _ right, .inr rfl⟩

/-- A sound value and sound parameters are read together. -/
theorem rightRead_both {value : ExtAttrValue} (valueSound : value.sound = true)
    (isSound : argumentsSound arguments = true) :
    RightRead (.mark .equals :: (value.lexemes ++ parameterLexemes arguments)) others := by
  have found := read_parameters_of_reads reads others
  rw [if_pos isSound] at found
  have right := @read_right_value (parameterLexemes arguments ++ others) value valueSound
  rw [read_optional_of_some _ found, Option.map_some] at right
  refine ⟨some (), gap others, ?_, .inr rfl⟩
  rw [List.cons_append, List.append_assoc]
  exact read_optional_of_some _ right

/-- The opening parenthesis stays in front of parameters that are not sound. -/
theorem rightStuck_parameters (unsound : argumentsSound arguments = false) :
    RightStuck (parameterLexemes arguments) others := by
  have missing := read_parameters_of_reads reads others
  rw [if_neg (by simp [unsound])] at missing
  have head := @head_parameterLexemes others arguments
  have noEquals : grammar.scan (.symbol '=') (written (parameterLexemes arguments ++ others)) =
      none := scan_symbol_of_head (by rw [head]; decide)
  have right : grammar.read extAttrRight (written (parameterLexemes arguments ++ others)) =
      none := by
    simp [read_extAttrRight_eq, missing, noEquals]
  refine ⟨_, _, read_optional_of_none _ right, ?_⟩
  rw [afterBlank_written, head]
  decide

/-- Unsound parameters behind a value leave the attribute open. -/
theorem rightStuck_both {value : ExtAttrValue} (valueSound : value.sound = true)
    (unsound : argumentsSound arguments = false) :
    RightStuck (.mark .equals :: (value.lexemes ++ parameterLexemes arguments)) others := by
  have missing := read_parameters_of_reads reads others
  rw [if_neg (by simp [unsound])] at missing
  have right := @read_right_value (parameterLexemes arguments ++ others) value valueSound
  rw [read_optional_of_none _ missing, Option.map_some] at right
  refine ⟨some (), written (parameterLexemes arguments ++ others), ?_, ?_⟩
  · rw [List.cons_append, List.append_assoc]
    exact read_optional_of_some _ right
  · rw [afterBlank_written, head_parameterLexemes]
    decide

end Parameters

end Right

/-! ### Everything inside of sections -/

/-- An attribute without parameters is read when its value is sound. -/
theorem readsExtAttr_plain (name : Identifier) (value : Option ExtAttrValue) :
    ReadsExtAttr (.plain name value) where
  read_of_sound isSound rest ends := by
    cases value with
    | none => exact read_extAttr_of_right (rightRead_none ends)
    | some value => exact read_extAttr_of_right (rightRead_value ends isSound)
  stuck_of_unsound unsound rest _ := by
    cases value with
    | none => contradiction
    | some value => exact stuck_extAttr_of_right (rightStuck_value unsound)

/-- An attribute with parameters is read when its value and its arguments are. -/
theorem readsExtAttr_call (name : Identifier) (value : Option ExtAttrValue)
    {arguments : List ArgumentTree} (reads : ∀ argument ∈ arguments, ReadsArgument argument) :
    ReadsExtAttr (.call name value arguments) where
  read_of_sound isSound rest _ := by
    simp only [ExtAttrTree.sound, Bool.and_eq_true] at isSound
    cases value with
    | none => exact read_extAttr_of_right (rightRead_parameters reads isSound.2)
    | some value => exact read_extAttr_of_right (rightRead_both reads isSound.1 isSound.2)
  stuck_of_unsound unsound rest _ := by
    cases value with
    | none => exact stuck_extAttr_of_right (rightStuck_parameters reads unsound)
    | some value =>
      by_cases valueSound : value.sound = true
      · have unsoundArguments : argumentsSound arguments = false := by
          simpa [ExtAttrTree.sound, Idl.valueSound, valueSound] using unsound
        exact stuck_extAttr_of_right (rightStuck_both reads valueSound unsoundArguments)
      · have stuck := @stuck_extAttr_of_right name _ (parameterLexemes arguments ++ rest)
          (rightStuck_value (eq_false_of_ne_true valueSound))
        simpa [ExtAttrTree.lexemes, valueLexemes] using stuck

/-- An argument is read like what stands behind its sound extended attributes. -/
theorem read_argument_of_reads {extAttrs : List ExtAttrTree}
    (reads : ∀ extAttr ∈ extAttrs, ReadsExtAttr extAttr) (core : ArgumentCore)
    (others : List Lexeme) :
    grammar.read (spaced argument)
        (written ((ArgumentTree.mk extAttrs core).lexemes ++ others)) =
      if extAttrsSound extAttrs then
        (grammar.read (spaced argumentAlternatives) (written (core.lexemes ++ others))).map
          fun reading => ({ reading.1 with extAttrs := extAttrs.map ExtAttrTree.text }, reading.2)
      else none := by
  have noBracket := scan_symbol_core others (show isTokenPart '[' = false by decide) (by decide)
    core
  rw [ArgumentTree.lexemes, List.append_assoc, read_spaced, read_spaced, argument_eq, read_map,
    read_attributed_of_reads failsAtBracket_argument reads noBracket]
  split
  · simp [Option.map_map, Function.comp_def]
  · rfl

/-- Behind an argument of a list stands no equals sign, so no default is missed. -/
theorem EndsItem.no_equals {others : List Lexeme} (ends : EndsItem .closeParenthesis others) :
    grammar.scan (.symbol '=') (written others) = none := by
  cases ends <;> simp [Mark.char]

/-- An argument is read when its attributes and its type are sound. -/
theorem readsArgument_mk {extAttrs : List ExtAttrTree}
    (reads : ∀ extAttr ∈ extAttrs, ReadsExtAttr extAttr) (core : ArgumentCore) :
    ReadsArgument (.mk extAttrs core) where
  read_of_sound isSound rest ends := by
    simp only [ArgumentTree.sound, Bool.and_eq_true] at isSound
    rw [read_argument_of_reads reads, if_pos isSound.1,
      read_argumentCore isSound.2 ends.no_equals]
    rfl
  stuck_of_unsound unsound rest _ := by
    rw [read_argument_of_reads reads]
    split
    · next isSound =>
      have coreUnsound : core.type.sound = false := by
        simpa [ArgumentTree.sound, isSound] using unsound
      have stuck := stuck_argumentCore coreUnsound rest
      intro value last read
      rw [Option.map_eq_some_iff] at read
      obtain ⟨⟨argument, other⟩, found, same⟩ := read
      rw [← (Prod.mk.inj same).2]
      exact stuck argument other found
    · exact nofun

mutual

/-- Every attribute is read as its tree, by recursion through its arguments. -/
theorem readsExtAttr : (extAttr : ExtAttrTree) → ReadsExtAttr extAttr
  | .plain name value => readsExtAttr_plain name value
  | .call name value arguments =>
    readsExtAttr_call name value fun argument _ => readsArgument argument

/-- Every argument is read as its tree, by recursion through its attributes. -/
theorem readsArgument : (argument : ArgumentTree) → ReadsArgument argument
  | .mk extAttrs core => readsArgument_mk (fun extAttr _ => readsExtAttr extAttr) core

end

section Closed

variable {others : List Lexeme}

/-- Extended attributes are read in front of their phrase when they are sound. -/
theorem read_attributed {Value : Type} {phrase : Phrase Value} (fails : FailsAtBracket phrase)
    (extAttrs : List ExtAttrTree)
    (noBracket : grammar.scan (.symbol '[') (written others) = none) :
    grammar.read (attributed phrase) (written (sectionLexemes extAttrs ++ others)) =
      if extAttrsSound extAttrs then
        (grammar.read phrase (written others)).map fun reading =>
          ((extAttrs.map ExtAttrTree.text, reading.1), reading.2)
      else none :=
  read_attributed_of_reads fails (fun extAttr _ => readsExtAttr extAttr) noBracket

/-- Parameters are read when all of them are sound. -/
@[simp] theorem read_parameters (arguments : List ArgumentTree) :
    grammar.read parameters (written (parameterLexemes arguments ++ others)) =
      if argumentsSound arguments then some (arguments.map ArgumentTree.declared, gap others)
      else none :=
  read_parameters_of_reads (fun argument _ => readsArgument argument) others

/-- No alternative of a union is a parameter: the word between two of them is read as its name. -/
theorem read_parameters_union (first second : TypeTree) :
    grammar.read parameters (written (.mark .openParenthesis ::
      (first.lexemes ++ (.keyword .or :: (second.lexemes ++ others))))) = none := by
  have opened (lexemes : List Lexeme) :
      grammar.read parameters (written (.mark .openParenthesis :: lexemes)) =
        grammar.read (thenSkip (spaced (.map (·.getD []) (.optional (separated comma argument))))
          (symbol ')')) (written lexemes) := by
    simp [parameters, Mark.char]
  have noBracket : grammar.scan (.symbol '[')
      (written (first.lexemes ++ (.keyword .or :: (second.lexemes ++ others)))) = none :=
    scan_symbol_type _ (by decide) (by decide) first
  have bare := read_attributed failsAtBracket_argument [] noBracket
  rw [sectionLexemes, List.nil_append, extAttrsSound, if_pos rfl] at bare
  rw [opened]
  by_cases isSound : first.sound = true
  · have found : ∃ value, grammar.read argument
        (written (first.lexemes ++ (.keyword .or :: (second.lexemes ++ others)))) =
          some (value, gap (second.lexemes ++ others)) := by
      rw [argument_eq, read_map, bare]
      simp [argumentAlternatives, firstOf, read_choice, read_seq, read_optionalArgument_type,
        variadicArgument, requiredArgument, isSound]
    obtain ⟨value, read⟩ := found
    have noComma : grammar.read (skipThen comma argument) (gap (second.lexemes ++ others)) =
        none := by
      simp (disch := decide) [comma]
    have list : grammar.read (separated comma argument)
        (written (first.lexemes ++ (.keyword .or :: (second.lexemes ++ others)))) =
          some ([value], gap (second.lexemes ++ others)) := by
      simp [separated, read_seq, read, readMany_of_none noComma]
    simp (disch := decide) [read_optional_of_some _ list]
  · have missing := read_alternatives_unsound (eq_false_of_ne_true isSound)
      (.keyword .or :: (second.lexemes ++ others))
    have noArgument : grammar.read argument
        (written (first.lexemes ++ (.keyword .or :: (second.lexemes ++ others)))) = none := by
      rw [argument_eq, read_map, bare, missing]
      rfl
    have noList : grammar.read (separated comma argument)
        (written (first.lexemes ++ (.keyword .or :: (second.lexemes ++ others)))) = none := by
      simp [separated, read_seq, noArgument]
    simp (disch := decide) [read_optional_of_none _ noList]

end Closed

end InterfaceAudit.Idl
