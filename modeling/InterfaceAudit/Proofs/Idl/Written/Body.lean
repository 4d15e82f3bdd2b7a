import InterfaceAudit.Proofs.Idl.Written.Member

/-!
Bodies of definitions in a written text.
A body is read up to its semicolon when all its items are sound.
-/

namespace InterfaceAudit.Idl

open Grammar
open Grammar.Expression (skipThen thenSkip firstOf separated)

/-! ### Bodies -/

/-- A body is closed by a brace and a semicolon. -/
def bodyLexemes (content : List Lexeme) : List Lexeme :=
  .mark .openBrace :: (content ++ [.mark .closeBrace, .mark .semicolon])

section Bodies

variable {Value : Type} (others : List Lexeme)

/-- A body is closed by its brace and its semicolon. -/
theorem read_closing :
    grammar.read (.seq (spaced (symbol '\x7d')) semicolon)
        (written (.mark .closeBrace :: .mark .semicolon :: others)) =
      some ((['\x7d'], [';']), gap others) := by
  simp [read_seq, semicolon, Mark.char]

/-- The content of a body is read up to the brace that closes it. -/
theorem read_body (content : Phrase Value) (lexemes : List Lexeme) :
    grammar.read (body content) (written (bodyLexemes lexemes ++ others)) =
      (grammar.read content
          (written (lexemes ++ .mark .closeBrace :: .mark .semicolon :: others))).bind
        fun reading => (grammar.read (.seq (spaced (symbol '\x7d')) semicolon) reading.2).map
          fun other => (reading.1, other.2) := by
  simp [body, bodyLexemes, Mark.char]

end Bodies

section Blocks

variable {Value Item : Type}

/-- An item is read wherever it stands if it is sound, and it begins with no closing brace. -/
structure ReadsBlock (phrase : Phrase Value) (lexemes : Item → List Lexeme) (sound : Item → Bool)
    (value : Item → Value) : Prop where
  read_item : ∀ item rest, grammar.read (spaced phrase) (written (lexemes item ++ rest)) =
    if sound item then some (value item, written rest) else none
  apart : ∀ item rest, grammar.scan (.symbol '\x7d') (written (lexemes item ++ rest)) = none
  stop : ∀ rest, grammar.read (spaced phrase) (written (.mark .closeBrace :: rest)) = none

variable {phrase : Phrase Value} {lexemes : Item → List Lexeme} {sound : Item → Bool}
  {value : Item → Value} (reads : ReadsBlock phrase lexemes sound value)

include reads

/-- An item of a body has at least one lexeme. -/
theorem ReadsBlock.lexemes_ne_nil (item : Item) : lexemes item ≠ [] := by
  intro empty
  have apart := reads.apart item [.mark .closeBrace]
  rw [empty, List.nil_append, scan_symbol_mark] at apart
  simp [Mark.char] at apart

/-- A block of items is read with the end of its body when all of them are sound. -/
theorem ReadsBlock.read_body (items : List Item) (others : List Lexeme) :
    grammar.read (body (.many (spaced phrase)))
        (written (bodyLexemes (items.flatMap lexemes) ++ others)) =
      if items.all sound then some (items.map value, gap others) else none := by
  have block := @readMany_block _ _ (grammar.read (spaced phrase)) lexemes sound value
    (fun _ => True) (.mark .closeBrace :: .mark .semicolon :: others) items
    (fun item _ => reads.lexemes_ne_nil item) (fun item _ rest _ => reads.read_item item rest)
    (fun _ _ _ => trivial) trivial (reads.stop _)
  rw [Idl.read_body, read_many, Option.bind_some, block]
  by_cases allSound : items.all sound = true
  · have all := List.all_eq_true.mp allSound
    rw [if_pos allSound, List.takeWhile_eq_self_iff.mpr all, List.dropWhile_eq_nil_iff.mpr all,
      List.flatMap_nil, List.nil_append, read_closing]
    rfl
  · rw [if_neg allSound]
    obtain ⟨item, rest, same⟩ : ∃ item rest, items.dropWhile sound = item :: rest := by
      refine List.exists_cons_of_ne_nil fun empty => allSound ?_
      exact List.all_eq_true.mpr (List.dropWhile_eq_nil_iff.mp empty)
    rw [same, List.flatMap_cons, List.append_assoc]
    simp [read_seq, reads.apart]

end Blocks

/-! ### Members -/

/-- Members are read one by one in a body. -/
theorem readsBlock_member :
    ReadsBlock member MemberTree.lexemes MemberTree.sound fun member => some member.declared where
  read_item member rest := read_member rest member
  apart member rest := by
    rw [MemberTree.lexemes, List.append_assoc]
    exact scan_symbol_section (by decide) member.extAttrs
      (scan_symbol_memberCore rest (by decide) (by decide) member.core)
  stop rest := read_member_closeBrace rest

/-- Members are read with their body when all of them are sound. -/
@[simp] theorem read_members (list : List MemberTree) (others : List Lexeme) :
    grammar.read members (written (bodyLexemes (list.flatMap MemberTree.lexemes) ++ others)) =
      if list.all MemberTree.sound then some (list.map MemberTree.declared, gap others)
      else none := by
  rw [members, read_map, readsBlock_member.read_body]
  split
  · simp [List.filterMap_map]
  · rfl

/-! ### Fields -/

/-- A field without its extended attributes. -/
inductive FieldCore where
  | required (type : TypeTree) (name : Identifier)
  | optional (type : TypeTree) (name : Identifier) (default : Option DefaultTree)

structure FieldTree where
  extAttrs : List ExtAttrTree
  core : FieldCore

def FieldCore.lexemes : FieldCore → List Lexeme
  | .required type name => .keyword .required :: (type.lexemes ++ [.name name, .mark .semicolon])
  | .optional type name default =>
    type.lexemes ++ (.name name :: (defaultLexemes default ++ [.mark .semicolon]))

def FieldTree.lexemes (field : FieldTree) : List Lexeme :=
  sectionLexemes field.extAttrs ++ field.core.lexemes

def FieldCore.type : FieldCore → TypeTree
  | .required type _ => type
  | .optional type _ _ => type

def FieldTree.sound (field : FieldTree) : Bool :=
  extAttrsSound field.extAttrs && field.core.type.sound

def FieldCore.declared : FieldCore → Field
  | .required type name =>
    { name := String.ofList name.chars, type := type.text, required := true }
  | .optional type name default =>
    { name := String.ofList name.chars
      type := type.text
      default := default.map DefaultTree.text }

def FieldTree.declared (field : FieldTree) : Field :=
  { field.core.declared with extAttrs := field.extAttrs.map ExtAttrTree.text }

/-- The alternatives of a field behind its extended attributes. -/
def fieldAlternatives : Phrase Field := .choice requiredField optionalField

theorem field_eq : field =
    .map (fun (extAttrs, field) => { field with extAttrs }) (attributed fieldAlternatives) := rfl

section Fields

variable (others : List Lexeme)

/-- A field whose type is stuck is not read. -/
theorem read_optionalField_unsound {type : TypeTree} (unsound : type.sound = false) :
    grammar.read optionalField (written (type.lexemes ++ others)) = none := by
  rw [optionalField, read_map, (typeStuck unsound others).seq_none]
  · rfl
  · intro mark rest _
    simp [read_seq]

/-- The word for a required field is read as a type, and the first word of an unsound type as the
name of the field. -/
theorem read_optionalField_required {type : TypeTree} (unsound : type.sound = false) :
    grammar.read optionalField (written (.keyword .required :: (type.lexemes ++ others))) =
      none := by
  obtain ⟨use, found⟩ := read_type_keyword_type .required type others
  have begins := beginsCompound_of_unsound unsound others
  generalize type.lexemes ++ others = lexemes at begins found
  cases begins with
  | union first second rest => simp [optionalField, read_seq, found]
  | @word content next continues rest =>
    have noEquals : grammar.scan (.symbol '=') (written (next :: rest)) = none :=
      scan_symbol_continues (by decide) (by decide) (by decide) continues rest
    have noSemicolon : grammar.scan (.symbol ';') (written (next :: rest)) = none :=
      scan_symbol_continues (by decide) (by decide) (by decide) continues rest
    have noDefault := read_optional_of_none _ (read_default_none noEquals)
    simp [optionalField, read_seq, found, noDefault, semicolon, noSemicolon]

/-- A field without attributes is read as declared exactly when its type is sound. -/
theorem read_fieldAlternatives (core : FieldCore) :
    grammar.read fieldAlternatives (written (core.lexemes ++ others)) =
      if core.type.sound then some (core.declared, gap others) else none := by
  cases core with
  | required type name =>
    simp only [FieldCore.lexemes, List.cons_append, List.append_assoc, List.nil_append]
    by_cases isSound : type.sound = true
    · simp [fieldAlternatives, read_choice, requiredField, read_seq, FieldCore.type,
        FieldCore.declared, TypeTree.use, isSound, semicolon, Mark.char]
    · have unsound := eq_false_of_ne_true isSound
      have missing : grammar.read (.seq (spaced Idl.type) (thenSkip (spaced Idl.name) semicolon))
          (written (type.lexemes ++ .name name :: .mark .semicolon :: others)) = none :=
        (typeStuck unsound _).seq_none fun mark rest _ => by simp
      rw [fieldAlternatives, read_choice, read_optionalField_required _ unsound]
      simp [requiredField, missing, FieldCore.type, unsound]
  | optional type name default =>
    simp only [FieldCore.lexemes, List.cons_append, List.append_assoc, List.nil_append]
    have noRequired (lexemes : List Lexeme) :
        grammar.read requiredField (written (type.lexemes ++ lexemes)) = none := by
      simp [requiredField]
    rw [fieldAlternatives, read_choice, noRequired, Option.none_or]
    by_cases isSound : type.sound = true
    · cases default with
      | none =>
        have noDefault := read_optional_of_none _ (@read_default_none
          (.mark .semicolon :: others) (by simp [Mark.char]))
        simp [optionalField, read_seq, FieldCore.type, FieldCore.declared, TypeTree.use,
          defaultLexemes, noDefault, isSound, semicolon, Mark.char]
      | some default =>
        have found := read_optional_of_some _ (read_default (.mark .semicolon :: others) default)
        simp [optionalField, read_seq, FieldCore.type, FieldCore.declared, TypeTree.use,
          defaultLexemes, found, isSound, semicolon, Mark.char]
    · have unsound := eq_false_of_ne_true isSound
      rw [read_optionalField_unsound _ unsound]
      simp [FieldCore.type, unsound]

/-- No alternative of a field starts with a bracket. -/
theorem failsAtBracket_field : FailsAtBracket fieldAlternatives := by
  intro others missing
  have noType := read_type_mark (by decide) missing
  simp [fieldAlternatives, read_choice, requiredField, optionalField, read_seq, noType]

/-- A field begins with a word or with the parenthesis of a union. -/
theorem scan_symbol_fieldCore {mark : Char} (notPart : isTokenPart mark = false)
    (notParenthesis : '(' ≠ mark) (core : FieldCore) :
    grammar.scan (.symbol mark) (written (core.lexemes ++ others)) = none := by
  cases core with
  | required type name => exact scan_symbol_word _ notPart _
  | optional type name default =>
    rw [FieldCore.lexemes, List.append_assoc]
    exact scan_symbol_type _ notPart notParenthesis type

end Fields

/-- Fields are read one by one in a body. -/
theorem readsBlock_field :
    ReadsBlock field FieldTree.lexemes FieldTree.sound FieldTree.declared where
  read_item field rest := by
    have noBracket := scan_symbol_fieldCore rest (show isTokenPart '[' = false by decide)
      (by decide) field.core
    rw [FieldTree.lexemes, List.append_assoc, read_spaced, field_eq, read_map,
      read_attributed failsAtBracket_field field.extAttrs noBracket, read_fieldAlternatives]
    by_cases isSound : extAttrsSound field.extAttrs = true
    · by_cases typeSound : field.core.type.sound = true <;>
        simp [FieldTree.sound, FieldTree.declared, isSound, typeSound]
    · simp [FieldTree.sound, isSound]
  apart field rest := by
    rw [FieldTree.lexemes, List.append_assoc]
    exact scan_symbol_section (by decide) field.extAttrs
      (scan_symbol_fieldCore rest (by decide) (by decide) field.core)
  stop rest := by
    have noBracket : grammar.scan (.symbol '[') (written (.mark .closeBrace :: rest)) = none := by
      simp [Mark.char]
    have noType := read_type_mark (by decide) (read_extAttrSection_none noBracket)
    have noField : grammar.read fieldAlternatives (written (.mark .closeBrace :: rest)) = none := by
      simp [fieldAlternatives, read_choice, requiredField, optionalField, read_seq, noType]
    have missing := read_attributed failsAtBracket_field [] noBracket
    rw [sectionLexemes, List.nil_append, noField] at missing
    rw [read_spaced, field_eq, read_map, missing]
    rfl

/-! ### Values of enumerations -/

/-- Quoted values are separated by commas. -/
def valuesLexemes : List Quotable → List Lexeme
  | [] => []
  | value :: others => .quoted value :: behindCommas (fun value => [.quoted value]) others

def Quotable.text (content : Quotable) : String := String.ofList content.chars

/-- The values of an enumeration are read one by one, and all of them are sound. -/
theorem readsItem_enumerationValue (value : Quotable) :
    ReadsItem enumerationValue (fun value => [.quoted value]) (fun _ => true) Quotable.text
      .closeBrace value where
  read_of_sound _ rest _ := by
    simp [enumerationValue, Quotable.text, inner, Lexeme.chars]
  stuck_of_unsound unsound := by contradiction

/-- An enumeration has a value. -/
theorem read_values (values : List Quotable) (others : List Lexeme) :
    grammar.read (body (thenSkip (separated comma enumerationValue)
        (spaced (.optional (skipThen blank (symbol ','))))))
        (written (bodyLexemes (valuesLexemes values) ++ others)) =
      if values.isEmpty then none else some (values.map Quotable.text, gap others) := by
  rw [read_body]
  cases values with
  | nil =>
    simp [valuesLexemes, separated, read_seq, enumerationValue]
  | cons value values =>
    have list := @read_separated _ _ _ _ _ _ _ value values (.mark .semicolon :: others)
      (fun value _ => readsItem_enumerationValue value) (by decide) (fun _ _ => rfl)
    obtain ⟨last, found, closes⟩ := read_of_spaced list
    have noComma : grammar.read (skipThen blank (symbol ',')) last = none := by
      simp [closes, Mark.char]
    simp only [List.singleton_append] at found
    rw [valuesLexemes, List.cons_append, read_thenSkip, found]
    simp [read_optional_of_none _ noComma, closes, read_closing]

end InterfaceAudit.Idl
