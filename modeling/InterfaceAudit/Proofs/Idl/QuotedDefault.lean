import InterfaceAudit.Audit.Feature
import InterfaceAudit.Proofs.Idl.Written.Document
import InterfaceAudit.Proofs.Text.Spacing

/-!
Quoted defaults.
A quoted default is squeezed before its quotes are dropped, and a quoted value of an enumeration is
kept as it is; both are the same exactly for evenly spaced contents.
-/

namespace InterfaceAudit.Idl

open Grammar
open Grammar.Expression (firstOf)
open Text (squeeze spacedBehind)

/-! ### Contents of quotes -/

namespace Quotable

variable (content : Quotable)

def quoted : List Char := '\x22' :: content.chars ++ ['\x22']

/-- What is left of the content when it is squeezed inside its quotes. -/
def squeezed : List Char := inner (squeeze content.quoted)

/-- Squeezing a quoted text keeps its quotes. -/
theorem squeeze_quoted : squeeze content.quoted = '\x22' :: content.squeezed ++ ['\x22'] := by
  have plain : Text.isPlain '\x22' = true := by decide
  have solid : Text.isBlank '\x22' = false := by decide
  obtain ⟨front, ends⟩ := Text.squeeze_append_plain plain content.chars
  have whole : squeeze content.quoted =
      '\x22' :: (Text.joint '\x22' (content.chars ++ ['\x22']) ++ front) ++ ['\x22'] := by
    rw [quoted, List.cons_append, Text.squeeze_solid solid, ends, List.cons_append,
      List.append_assoc]
  rw [squeezed, whole]
  simp [inner]

/-- A content stays as it is exactly when it is evenly spaced between its quotes. -/
theorem squeezed_eq_iff :
    content.squeezed = content.chars ↔
      spacedBehind '\x22' (content.chars ++ ['\x22']) = true := by
  have solid : Text.isBlank '\x22' = false := by decide
  have whole := (Text.squeeze_eq_self_iff (content.chars ++ ['\x22'])).1 '\x22' solid
  rw [← whole]
  change _ ↔ squeeze content.quoted = _
  rw [squeeze_quoted]
  simp

end Quotable

/-- A quoted default is the squeezed content between its quotes. -/
theorem defaultText_quoted (content : Quotable) :
    defaultText content.quoted = String.ofList content.squeezed := by
  rw [defaultText, Quotable.squeezed, content.squeeze_quoted]
  rfl

/-! ### Quotes in any layout -/

/-- A quoted text is taken as a default value wherever it stands. -/
theorem read_defaultValue_quoted (content : Quotable) (after : List Char) :
    grammar.read defaultValue (content.quoted ++ after) = some (content.quoted, after) := by
  have quoted : grammar.scan .quoted (content.quoted ++ after) = some (content.quoted, after) :=
    scanQuoted_quoted content after
  have noWord (kind : Token) (begins : kind.beginsWithPart = true) :
      grammar.scan kind (content.quoted ++ after) = none :=
    scan_of_notPart begins (by decide) (by decide) _
  have noConstant : grammar.read constantValue (content.quoted ++ after) = none := by
    simp [constantValue, firstOf, read_choice, noWord (.keyword .yes) rfl,
      noWord (.keyword .no) rfl, noWord .number rfl]
  simp [defaultValue, firstOf, read_choice, noConstant, quoted]

/-- A type, a name, an equals sign and a quoted content follow each other, with any blanks in
between. -/
def DeclaresDefault (text : List Char) (type : TypeUse) (name : String) (content : Quotable)
    (after : List Char) : Prop :=
  ∃ nameText equals mark, grammar.read (spaced Idl.type) text = some (type, nameText) ∧
    grammar.read (spaced Idl.name) nameText = some (name, equals) ∧
    grammar.read (spaced (symbol '=')) equals = some (mark, content.quoted ++ after)

/-- The default behind an equals sign is the squeezed content. -/
theorem read_default_quoted {equals after mark : List Char} {content : Quotable}
    (marked : grammar.read (spaced (symbol '=')) equals = some (mark, content.quoted ++ after)) :
    grammar.read Idl.default equals = some (String.ofList content.squeezed, after) := by
  rw [Idl.default, read_skipThen, marked, Option.bind_some, read_map, read_source,
    read_defaultValue_quoted]
  simp [consumed_of_append, defaultText_quoted]

section Declarations

variable {text after rest mark : List Char} {type : TypeUse} {name : String} {content : Quotable}
  (declares : DeclaresDefault text type name content after)

include declares

/-- A dictionary field has the squeezed content as its default. -/
theorem read_optionalField_quoted
    (closed : grammar.read semicolon (afterBlank after) = some (mark, rest)) :
    grammar.read optionalField text =
      some ({ name, type := type.text, default := some (String.ofList content.squeezed) },
        rest) := by
  obtain ⟨nameText, equals, _, typed, named, marked⟩ := declares
  have default_read := read_optional_of_some equals (read_default_quoted marked)
  rw [optionalField, read_map, read_seq, typed, Option.bind_some, read_seq, named,
    Option.bind_some, read_thenSkip, read_spaced, default_read]
  simp [closed]

/-- An optional argument has the squeezed content as its default. -/
theorem read_optionalArgument_quoted {start word : List Char}
    (introduced : grammar.read (spaced (keyword .optional)) start = some (word, text)) :
    grammar.read optionalArgument start =
      some ({ name, type := type.text, isOptional := true,
              default := some (String.ofList content.squeezed) }, after) := by
  obtain ⟨nameText, equals, _, typed, named, marked⟩ := declares
  have default_read := read_optional_of_some equals (read_default_quoted marked)
  rw [optionalArgument, read_map, read_skipThen, introduced, Option.bind_some, read_seq, typed,
    Option.bind_some, read_seq, named, Option.bind_some, default_read]
  rfl

end Declarations

/-- The same quoted text is the value of an enumeration as it is written. -/
theorem read_enumerationValue_quoted (content : Quotable) (after : List Char) :
    grammar.read enumerationValue (content.quoted ++ after) = some (content.text, after) := by
  have quoted : grammar.read (.token .quoted) (content.quoted ++ after) =
      some (content.quoted, after) := scanQuoted_quoted content after
  have inner_eq : inner content.quoted = content.chars := by simp [inner, Quotable.quoted]
  rw [enumerationValue, read_map, quoted, Option.map_some, inner_eq]
  rfl

/-! ### Quotes in documents -/

/-- Every definition of a document is declared on some line. -/
theorem mem_declaredFrom {tree : DefinitionTree} {trees : List DefinitionTree}
    (member : tree ∈ trees) (line : Nat) :
    ∃ start, tree.found.on start ∈ declaredFrom line trees := by
  induction trees generalizing line with
  | nil => contradiction
  | cons first others inductionHypothesis =>
    rcases List.mem_cons.mp member with rfl | inOthers
    · exact ⟨line, List.mem_cons_self ..⟩
    · obtain ⟨start, found⟩ := inductionHypothesis inOthers (line + lineFeeds first.lexemes)
      exact ⟨start, List.mem_cons_of_mem _ found⟩

/-- A field of a dictionary is listed in the entry of the dictionary. -/
theorem entry_of_field {document : Document} {dictionary : Dictionary} {field : Field}
    (declared : .dictionary dictionary ∈ document.definitions)
    (complete : dictionary.isPartial = false) (member : field ∈ dictionary.fields)
    (idlFile : String) :
    ∃ entry ∈ (Audit.types idlFile document).dictionaries, entry.name = dictionary.name ∧
      ⟨field.name, field.type, field.required, field.default⟩ ∈ entry.fields := by
  have listed : dictionary ∈ document.allDictionaries :=
    List.mem_filterMap.mpr ⟨_, declared, rfl⟩
  have own : field ∈ document.ownFields dictionary.name false := by
    refine List.mem_flatMap.mpr ⟨dictionary, List.mem_filter.mpr ⟨listed, ?_⟩, member⟩
    simp [complete]
  have isComplete : dictionary ∈ document.dictionaries :=
    List.mem_filter.mpr ⟨listed, by simp [complete]⟩
  exact ⟨_, List.mem_map.mpr ⟨dictionary, isComplete, rfl⟩, rfl,
    List.mem_map.mpr ⟨field, List.mem_append_left _ own, rfl⟩⟩

/-- The text of a quoted default in a written document is its squeezed content. -/
theorem text_quoted (content : Quotable) :
    DefaultTree.text (.quoted content) = String.ofList content.squeezed := by
  have same : spelled [.quoted content] = squeeze content.quoted := by
    rw [spelled, List.flatMap_singleton]
    rfl
  rw [DefaultTree.text, same]
  rfl

/-- The default of a field of a written dictionary is listed as it is squeezed. -/
theorem types_written_quoted {trees : List DefinitionTree}
    (isSound : trees.all DefinitionTree.sound = true) {extAttrs fieldAttrs : List ExtAttrTree}
    {name fieldName : Identifier} {parent : Option Identifier} {fields : List FieldTree}
    {type : TypeTree} {content : Quotable}
    (listed : ⟨extAttrs, .complete (.dictionary name parent fields)⟩ ∈ trees)
    (member : ⟨fieldAttrs, .optional type fieldName (some (.quoted content))⟩ ∈ fields)
    (idlFile : String) :
    ∃ document, Document.parse (written (documentLexemes trees)) = .ok document ∧
      ∃ entry ∈ (Audit.types idlFile document).dictionaries, entry.name = name.text ∧
        ⟨fieldName.text, type.text, false, some (String.ofList content.squeezed)⟩ ∈
          entry.fields := by
  obtain ⟨start, found⟩ := mem_declaredFrom listed 1
  have field := List.mem_map_of_mem (f := FieldTree.declared) member
  obtain ⟨entry, inEntries, named, inFields⟩ := entry_of_field found rfl field idlFile
  refine ⟨_, parse_written isSound, entry, inEntries, named, ?_⟩
  rw [← text_quoted]
  exact inFields

/-- A quoted default is its content as it is squeezed inside the quotes, in every layout of a field
or an argument and in the document of types. It is the content itself exactly when the content is
evenly spaced, whereas a quoted value of an enumeration is the content itself always. -/
theorem default_squeezed (content : Quotable) :
    (content.squeezed = content.chars ↔
      spacedBehind '\x22' (content.chars ++ ['\x22']) = true) ∧
    (∀ after, grammar.read enumerationValue (content.quoted ++ after) =
      some (content.text, after)) ∧
    (∀ text type name after mark rest, DeclaresDefault text type name content after →
      grammar.read semicolon (afterBlank after) = some (mark, rest) →
        grammar.read optionalField text =
          some ({ name, type := type.text, default := some (String.ofList content.squeezed) },
            rest)) ∧
    (∀ start word text type name after,
      grammar.read (spaced (keyword .optional)) start = some (word, text) →
        DeclaresDefault text type name content after →
          grammar.read optionalArgument start =
            some ({ name, type := type.text, isOptional := true,
                    default := some (String.ofList content.squeezed) }, after)) ∧
    (∀ trees extAttrs name parent fields fieldAttrs type fieldName idlFile,
      trees.all DefinitionTree.sound = true →
        (⟨extAttrs, .complete (.dictionary name parent fields)⟩ : DefinitionTree) ∈ trees →
          (⟨fieldAttrs, .optional type fieldName (some (.quoted content))⟩ : FieldTree) ∈ fields →
            ∃ document, Document.parse (written (documentLexemes trees)) = .ok document ∧
              ∃ entry ∈ (Audit.types idlFile document).dictionaries, entry.name = name.text ∧
                ⟨fieldName.text, type.text, false, some (String.ofList content.squeezed)⟩ ∈
                  entry.fields) :=
  ⟨content.squeezed_eq_iff, read_enumerationValue_quoted content,
    fun _ _ _ _ _ _ declares closed => read_optionalField_quoted declares closed,
    fun _ _ _ _ _ _ introduced declares => read_optionalArgument_quoted declares introduced,
    fun _ _ _ _ _ _ _ _ idlFile isSound listed member =>
      types_written_quoted isSound listed member idlFile⟩

def twoSpaces : Quotable := ⟨"x  y".toList, by decide⟩

/-- A dictionary with one field. -/
def twoSpacesDictionary : List DefinitionTree :=
  [⟨[], .complete (.dictionary .a none
    [⟨[], .optional (.named .a) .b (some (.quoted twoSpaces))⟩])⟩]

/-- One of two spaces is lost in a default and both are kept in an enumeration. -/
theorem default_squeezed_twoSpaces :
    twoSpaces.squeezed ≠ twoSpaces.chars ∧
    grammar.read enumerationValue "\x22x  y\x22,".toList = some ("x  y", [',']) ∧
    grammar.read optionalField "long a\n= \x22x  y\x22 ;".toList =
      some ({ name := "a", type := "long", default := some "x y" }, []) ∧
    grammar.read optionalArgument "optional long a\n= \x22x  y\x22 ;".toList =
      some ({ name := "a", type := "long", isOptional := true, default := some "x y" },
        " ;".toList) ∧
    ∃ document, Document.parse (written (documentLexemes twoSpacesDictionary)) = .ok document ∧
      ∃ entry ∈ (Audit.types "a.idl" document).dictionaries, entry.name = "A" ∧
        ⟨"_b", "A", false, some "x y"⟩ ∈ entry.fields := by
  have reading : (grammar.read (spaced type) "long a\n= \x22x  y\x22 ;".toList).map
      (fun reading => (reading.1.text, reading.2)) =
        some ("long", "a\n= \x22x  y\x22 ;".toList) := by
    decide +kernel
  obtain ⟨⟨use, rest⟩, typed, same⟩ := Option.map_eq_some_iff.mp reading
  obtain ⟨text, rfl⟩ : use.text = "long" ∧ rest = _ := by simpa using same
  have declares : DeclaresDefault "long a\n= \x22x  y\x22 ;".toList use "a" twoSpaces " ;".toList :=
    ⟨_, "= \x22x  y\x22 ;".toList, ['='], typed, by decide +kernel, by decide +kernel⟩
  have closed : grammar.read semicolon (afterBlank " ;".toList) = some ([';'], []) := by
    decide +kernel
  have introduced : grammar.read (spaced (keyword .optional))
      "optional long a\n= \x22x  y\x22 ;".toList =
        some ("optional".toList, "long a\n= \x22x  y\x22 ;".toList) := by
    decide +kernel
  obtain ⟨evenly, enumerated, field, argument, listed⟩ := default_squeezed twoSpaces
  have fieldRead := field _ _ _ _ _ _ declares closed
  have argumentRead := argument _ _ _ _ _ _ introduced declares
  have squeezed : twoSpaces.squeezed = "x y".toList := by decide +kernel
  rw [text, squeezed] at fieldRead argumentRead
  have entries := listed twoSpacesDictionary [] .a none _ [] (.named .a) .b "a.idl"
    (by decide) (List.mem_singleton_self _) (List.mem_singleton_self _)
  rw [squeezed] at entries
  exact ⟨fun same => absurd (evenly.mp same) (by decide), enumerated [','], fieldRead,
    argumentRead, entries⟩

end InterfaceAudit.Idl
