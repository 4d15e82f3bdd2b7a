import InterfaceAudit.Proofs.Idl.Written.Definition

/-!
Documents in a written text.
A written document is read back as its declarations when all its definitions are sound, and
otherwise up to the first definition that is not.
-/

namespace InterfaceAudit.Idl

open Text (newlines)
open Grammar

def documentLexemes (trees : List DefinitionTree) : List Lexeme :=
  trees.flatMap DefinitionTree.lexemes

/-- The declarations of definitions that are written one after the other from a line on. -/
def declaredFrom (line : Nat) : List DefinitionTree → List Definition
  | [] => []
  | tree :: others => tree.found.on line :: declaredFrom (line + lineFeeds tree.lexemes) others

theorem documentLexemes_cons (tree : DefinitionTree) (trees : List DefinitionTree) :
    documentLexemes (tree :: trees) = tree.lexemes ++ documentLexemes trees := List.flatMap_cons

/-! ### Definitions from a line on -/

/-- A text that begins with lexemes, up to a space in front of them. -/
structure BeginsWith (text : List Char) (lexemes : List Lexeme) : Prop where
  blank : afterBlank text = written lexemes
  lines : newlines text = lineFeeds lexemes

theorem beginsWith_written (lexemes : List Lexeme) : BeginsWith (written lexemes) lexemes :=
  ⟨afterBlank_written lexemes, newlines_written lexemes⟩

/-- The text behind a definition begins with the lexemes of the next one. -/
theorem beginsWith_gap (lexemes : List Lexeme) : BeginsWith (gap lexemes) lexemes :=
  ⟨afterBlank_gap lexemes, newlines_gap lexemes⟩

/-- No line feed stands in front of the lexemes. -/
theorem BeginsWith.newlines_blank {text : List Char} {lexemes : List Lexeme}
    (begins : BeginsWith text lexemes) : newlines (consumed text (afterBlank text)) = 0 := by
  have lines := newlines_consumed (afterBlank_suffix text)
  rw [begins.lines, begins.blank, newlines_written] at lines
  rw [begins.blank]
  omega

/-- Definitions are read up to the first one that is not sound, by induction over them. -/
theorem definitionsFrom_written (line : Nat) (trees : List DefinitionTree) {text : List Char}
    (begins : BeginsWith text (documentLexemes trees)) :
    definitionsFrom line text =
      (declaredFrom line (trees.takeWhile DefinitionTree.sound),
        written (documentLexemes (trees.dropWhile DefinitionTree.sound))) := by
  induction trees generalizing line text with
  | nil =>
    have missing : grammar.read definition (afterBlank text) = none := by
      rw [begins.blank]
      cases read : grammar.read definition (written (documentLexemes [])) with
      | none => rfl
      | some reading => exact absurd (definition_length read) (Nat.not_lt_zero _)
    rw [definitionsFrom_of_none missing, begins.blank]
    rfl
  | cons tree trees inductionHypothesis =>
    have read := read_definition (documentLexemes trees) tree
    rw [← documentLexemes_cons, ← begins.blank] at read
    by_cases isSound : tree.sound = true
    · rw [if_pos isSound] at read
      have lines := newlines_consumed ((suffix_of_read read).trans (afterBlank_suffix text))
      rw [begins.lines, newlines_gap, documentLexemes_cons, lineFeeds_append] at lines
      have extent : newlines (consumed text (gap (documentLexemes trees))) =
          lineFeeds tree.lexemes := by omega
      rw [definitionsFrom_of_some read, begins.newlines_blank, extent,
        inductionHypothesis _ (beginsWith_gap _), List.takeWhile_cons_of_pos isSound,
        List.dropWhile_cons_of_pos isSound]
      rfl
    · rw [if_neg isSound] at read
      rw [definitionsFrom_of_none read, begins.blank, List.takeWhile_cons_of_neg isSound,
        List.dropWhile_cons_of_neg isSound]
      rfl

/-! ### Documents -/

/-- Sound definitions are declared as they were written, each where it stands in the text. -/
theorem parse_written {trees : List DefinitionTree}
    (isSound : trees.all DefinitionTree.sound = true) :
    Document.parse (written (documentLexemes trees)) = .ok ⟨declaredFrom 1 trees⟩ := by
  have all := List.all_eq_true.mp isSound
  have found := definitionsFrom_written 1 trees (beginsWith_written _)
  rw [List.takeWhile_eq_self_iff.mpr all, List.dropWhile_eq_nil_iff.mpr all] at found
  rw [parse_eq_definitionsFrom, found]
  rfl

/-- A definition has at least one lexeme. -/
theorem DefinitionTree.lexemes_ne_nil (tree : DefinitionTree) : tree.lexemes ≠ [] := by
  have core : tree.core.lexemes ≠ [] := by
    cases tree.core with
    | complete content | «partial» content => exact content.lexemes_ne_nil
    | callbackInterface | callback | enumeration | typedef | inclusion => exact List.cons_ne_nil _ _
  simp [lexemes, core]

/-- A document with a definition that is not sound is refused. -/
theorem parse_unsound {trees : List DefinitionTree}
    (unsound : trees.all DefinitionTree.sound = false) :
    ∃ error, Document.parse (written (documentLexemes trees)) = .error error := by
  have found := definitionsFrom_written 1 trees (beginsWith_written _)
  obtain ⟨tree, rest, same⟩ : ∃ tree rest, trees.dropWhile DefinitionTree.sound = tree :: rest := by
    refine List.exists_cons_of_ne_nil fun empty => ?_
    rw [List.all_eq_true.mpr (List.dropWhile_eq_nil_iff.mp empty)] at unsound
    contradiction
  have left := length_written_lt tree.lexemes_ne_nil (documentLexemes rest)
  have notEmpty : (written (tree.lexemes ++ documentLexemes rest)).isEmpty = false := by
    rw [List.isEmpty_eq_false_iff]
    exact List.ne_nil_of_length_pos (Nat.zero_lt_of_lt left)
  rw [parse_eq_definitionsFrom, found, same, documentLexemes_cons, notEmpty]
  exact ⟨_, rfl⟩

/-! ### Examples of documents -/

def Identifier.a : Identifier := ⟨⟨['A'], by decide⟩, by decide⟩

def Identifier.b : Identifier := ⟨⟨['_', 'b'], by decide⟩, by decide⟩

/-- A type definition with two question marks at one place. -/
def doublyNullable : DefinitionTree :=
  ⟨[], .typedef (.nullable (.nullable (.named .a))) .b⟩

/-- The grammar takes no second question mark. -/
theorem parse_doublyNullable :
    ∃ error, Document.parse (written (documentLexemes [doublyNullable])) = .error error :=
  parse_unsound rfl

/-- A part of an interface with one operation, and an enumeration. -/
def partAndEnumeration : List DefinitionTree :=
  [⟨[.call .a (some (.item (.name .b))) []],
    .partial (.interface .a none
      [⟨[], .operation true none (.generic .a (.nullable (.primitive (.longLong true))) [])
        (some .b) [.mk [.plain .b none] (.optional (.union (.named .a) (.named .b) []) .a
          (some (.quoted ⟨[' ', '\n'], by decide⟩)))]⟩])⟩,
    ⟨[], .enumeration .b [⟨['\n'], by decide⟩, ⟨[], by decide⟩]⟩]

/-- A static operation with a generic type and a string of two lines come back. -/
theorem parse_written_partAndEnumeration :
    partAndEnumeration.all DefinitionTree.sound = true ∧
      Document.parse (written (documentLexemes partAndEnumeration)) =
        .ok ⟨declaredFrom 1 partAndEnumeration⟩ :=
  ⟨by decide, parse_written (by decide)⟩

end InterfaceAudit.Idl
