import InterfaceAudit.Proofs.Idl.Concatenation
import InterfaceAudit.Proofs.Idl.Written.Token
import InterfaceAudit.Proofs.Text.Squeeze
import Mathlib.Algebra.GroupWithZero.Nat

/-!
Spellings of written texts.
The pieces and the line feeds of a written text are those of its lexemes.
-/

namespace InterfaceAudit.Idl

open Grammar
open Text (Piece pieces pieces_append_cons pieces_run isMark isPlain glue newlines)

/-- Parts of tokens are plain characters, neither blanks nor marks. -/
theorem isPlain_of_isTokenPart {c : Char} (part : isTokenPart c = true) : isPlain c = true := by
  have notBlank := isBlank_false_of_isTokenPart part
  have notMark : isMark c = false := by
    by_contra mark
    simp only [isMark, Bool.not_eq_false, Bool.or_eq_true, beq_iff_eq] at mark
    rcases mark with (((((((rfl | rfl) | rfl) | rfl) | rfl) | rfl) | rfl) | rfl) <;> contradiction
  simp [isPlain, notMark, notBlank]

/-! ### Pieces of lexemes -/

/-- Words, numbers and the ellipsis are one piece; quoted texts are cut like any other text. -/
def Lexeme.pieces : Lexeme → List Piece
  | .mark kind => if isMark kind.char then [.mark kind.char] else [.word [kind.char]]
  | .pair opening closing => Text.pieces [opening.char, closing.char]
  | .ellipsis => [.word "...".toList]
  | .word content => [.word content.chars]
  | .number content => [.word content.chars]
  | .quoted content => Text.pieces ('\x22' :: content.chars ++ ['\x22'])

/-- A run of token parts is one word. -/
theorem pieces_of_parts {run : List Char} (nonempty : run ≠ [])
    (parts : run.all isTokenPart = true) : pieces run = [.word run] := by
  obtain ⟨first, rest, rfl⟩ := List.exists_cons_of_ne_nil nonempty
  apply pieces_run
  exact List.all_eq_true.mpr fun c member =>
    isPlain_of_isTokenPart (List.all_eq_true.mp parts c member)

theorem Word.all_isTokenPart (word : Word) : word.chars.all isTokenPart = true :=
  List.all_eq_true.mpr fun c member =>
    isTokenPart_of_isWordChar c (List.all_eq_true.mp word.all_isWordChar c member)

/-- A lexeme has the pieces of its characters. -/
theorem Lexeme.pieces_chars (lexeme : Lexeme) : Text.pieces lexeme.chars = lexeme.pieces := by
  cases lexeme with
  | mark kind => cases kind <;> rfl
  | pair opening closing => rfl
  | ellipsis => rfl
  | word content =>
    obtain ⟨first, rest, same, -⟩ := content.chars_eq
    exact pieces_of_parts (by simp [Lexeme.chars, same]) content.all_isTokenPart
  | number content => exact pieces_of_parts content.chars_ne_nil content.all_isTokenPart
  | quoted content => rfl

/-- The spaces between lexemes are no pieces, so a written text has those of its lexemes. -/
theorem pieces_written (lexemes : List Lexeme) :
    pieces (written lexemes) = lexemes.flatMap Lexeme.pieces := by
  induction lexemes with
  | nil => rfl
  | cons lexeme others inductionHypothesis =>
    rw [written, gap_eq, List.flatMap_cons]
    split
    · next empty => simp [empty, lexeme.pieces_chars]
    · rw [pieces_append_cons (by decide), inductionHypothesis, lexeme.pieces_chars]

/-- The squeezed spelling of lexemes. -/
def spelled (lexemes : List Lexeme) : List Char := glue (lexemes.flatMap Lexeme.pieces)

/-- Squeezing a written text leaves the glued pieces of its lexemes. -/
@[simp] theorem squeeze_written (lexemes : List Lexeme) :
    Text.squeeze (written lexemes) = spelled lexemes := by
  rw [Text.squeeze, pieces_written, spelled]

/-! ### Consumed lexemes -/

/-- What a phrase takes in front of a gap is the written lexemes themselves. -/
@[simp] theorem consumed_gap {lexemes : List Lexeme} (nonempty : lexemes ≠ [])
    (others : List Lexeme) :
    consumed (written (lexemes ++ others)) (gap others) = written lexemes := by
  rw [written_append nonempty, consumed_of_append]

/-- The space behind the lexemes may be consumed with them. -/
theorem consumed_written {lexemes : List Lexeme} (nonempty : lexemes ≠ [])
    (others : List Lexeme) :
    consumed (written (lexemes ++ others)) (written others) =
      if others = [] then written lexemes else written lexemes ++ [' '] := by
  rw [written_append nonempty, gap_eq]
  split
  · next empty =>
    rw [empty]
    exact consumed_of_append _ []
  · rw [List.append_cons, consumed_of_append]

/-- The space behind the lexemes of a phrase vanishes when its source is squeezed. -/
@[simp] theorem squeeze_consumed_written {lexemes : List Lexeme} (nonempty : lexemes ≠ [])
    (others : List Lexeme) :
    Text.squeeze (consumed (written (lexemes ++ others)) (written others)) = spelled lexemes := by
  rw [consumed_written nonempty]
  split
  · exact squeeze_written lexemes
  · rw [Text.squeeze, pieces_append_cons (by decide), pieces_written]
    exact congrArg glue (List.append_nil _)

/-! ### Line feeds -/

/-- Line feeds stand in quoted texts only. -/
def lineFeeds (lexemes : List Lexeme) : Nat :=
  (lexemes.map fun lexeme => newlines lexeme.chars).sum

@[simp] theorem lineFeeds_append (first second : List Lexeme) :
    lineFeeds (first ++ second) = lineFeeds first + lineFeeds second := by
  simp [lineFeeds]

/-- Gaps bring no line feeds of their own. -/
theorem newlines_gap (lexemes : List Lexeme) : newlines (gap lexemes) = lineFeeds lexemes := by
  induction lexemes with
  | nil => rfl
  | cons lexeme others inductionHypothesis =>
    have space : newlines (' ' :: (lexeme.chars ++ gap others)) =
        newlines (lexeme.chars ++ gap others) := List.count_cons_of_ne (by decide)
    rw [gap, space, newlines_append, inductionHypothesis]
    rfl

/-- A written text has the line feeds of its lexemes, which are those in quoted texts. -/
@[simp] theorem newlines_written (lexemes : List Lexeme) :
    newlines (written lexemes) = lineFeeds lexemes := by
  cases lexemes with
  | nil => rfl
  | cons lexeme others =>
    rw [written, newlines_append, newlines_gap]
    rfl

/-- The source of a phrase has the line feeds of its lexemes. -/
@[simp] theorem newlines_consumed_written (lexemes others : List Lexeme) :
    newlines (consumed (written (lexemes ++ others)) (written others)) = lineFeeds lexemes := by
  cases lexemes with
  | nil => simp [consumed, newlines, lineFeeds]
  | cons lexeme rest =>
    rw [consumed_written (List.cons_ne_nil lexeme rest)]
    split
    · exact newlines_written _
    · rw [newlines_append, newlines_written]
      rfl

end InterfaceAudit.Idl
