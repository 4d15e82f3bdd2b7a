import InterfaceAudit.Proofs.Idl.Alternative

/-!
Concatenation of files.
A file is read one definition after the other, and a definition is kept on every longer text, so an
accepted file goes on with the file behind it.
-/

namespace InterfaceAudit.Idl

open Grammar
open Grammar.Expression (thenSkip)
open Text (newlines)

/-! ### Line feeds of consumed texts -/

theorem newlines_append (first second : List Char) :
    newlines (first ++ second) = newlines first + newlines second :=
  List.count_append

/-- A text in front of what is read belongs to what is taken. -/
theorem consumed_append_front {text rest : List Char} (front : List Char) (suffix : rest <:+ text) :
    consumed (front ++ text) rest = front ++ consumed text rest := by
  obtain ⟨taken, rfl⟩ := suffix
  rw [consumed_of_append, ← List.append_assoc, consumed_of_append]

/-- The line feeds of a text are those that are taken and those that are left. -/
theorem newlines_consumed {text rest : List Char} (suffix : rest <:+ text) :
    newlines (consumed text rest) + newlines rest = newlines text := by
  obtain ⟨taken, rfl⟩ := suffix
  rw [consumed_of_append, newlines_append]

/-- Reading leaves an end of the text. -/
theorem suffix_of_read {Value : Type} {phrase : Phrase Value} {text rest : List Char}
    {value : Value} (found : grammar.read phrase text = some (value, rest)) : rest <:+ text := by
  have all : ∀ kind : Token, True := fun _ => trivial
  refine read_related (fun _ => True) (fun text rest => rest <:+ text) List.suffix_refl
    (fun first second => second.trans first) grammar ?_
    (fun rule => (grammar.body rule).within_of_forall all) phrase (phrase.within_of_forall all)
    found
  intro kind text taken rest _ scanned
  exact ⟨taken, (Token.scan_split scanned).1⟩

/-! ### Definitions from a line on -/

/-- A found definition whose phrase begins on the given line. -/
def Found.on (found : Found) (line : Nat) : Definition :=
  found.definition.withSpan (some ⟨line + found.lead, line + found.lead + found.extent⟩)

theorem definition_length {text rest : List Char} {found : Found}
    (read : grammar.read definition text = some (found, rest)) : rest.length < text.length :=
  progressive.read_length_lt definition (by decide) read

/-- The definitions of a text that begins on the given line, and what is left behind them. -/
def definitionsFrom (line : Nat) (text : List Char) : List Definition × List Char :=
  let start := afterBlank text
  let first := line + newlines (consumed text start)
  match _ : grammar.read definition start with
  | some (found, rest) =>
    let (others, last) := definitionsFrom (first + newlines (consumed start rest)) rest
    (found.on first :: others, last)
  | none => ([], start)
termination_by text.length
decreasing_by exact Nat.lt_of_lt_of_le (definition_length ‹_›) (afterBlank_suffix text).length_le

/-- Where no definition stands behind the blank, the list ends. -/
theorem definitionsFrom_of_none {line : Nat} {text : List Char}
    (missing : grammar.read definition (afterBlank text) = none) :
    definitionsFrom line text = ([], afterBlank text) := by
  rw [definitionsFrom]
  split
  · next found =>
    rw [missing] at found
    contradiction
  · rfl

/-- A definition is placed behind its blank, and the lines go on behind it. -/
theorem definitionsFrom_of_some {line : Nat} {text rest : List Char} {found : Found}
    (read : grammar.read definition (afterBlank text) = some (found, rest)) :
    definitionsFrom line text =
      (found.on (line + newlines (consumed text (afterBlank text))) ::
        (definitionsFrom (line + newlines (consumed text rest)) rest).1,
      (definitionsFrom (line + newlines (consumed text rest)) rest).2) := by
  have blankLines := newlines_consumed (afterBlank_suffix text)
  have definitionLines := newlines_consumed (suffix_of_read read)
  have allLines := newlines_consumed ((suffix_of_read read).trans (afterBlank_suffix text))
  rw [definitionsFrom]
  split
  · next other final otherRead =>
    rw [read] at otherRead
    obtain ⟨rfl, rfl⟩ := Prod.mk.inj (Option.some.inj otherRead)
    have sameLine : line + newlines (consumed text (afterBlank text)) +
        newlines (consumed (afterBlank text) rest) = line + newlines (consumed text rest) := by
      omega
    rw [sameLine]
  · next missing =>
    rw [read] at missing
    contradiction

/-- A text is followed one definition after the other. -/
theorem definitions_induction {motive : List Char → Prop}
    (step : ∀ text found rest, grammar.read definition (afterBlank text) = some (found, rest) →
      motive rest → motive text)
    (stop : ∀ text, grammar.read definition (afterBlank text) = none → motive text)
    (text : List Char) : motive text := by
  cases read : grammar.read definition (afterBlank text) with
  | none => exact stop text read
  | some reading =>
    obtain ⟨found, rest⟩ := reading
    have shorter := definition_length read
    have blank := (afterBlank_suffix text).length_le
    exact step text found rest read (definitions_induction step stop rest)
termination_by text.length
decreasing_by omega

/-- Definitions leave an end of the text. -/
theorem definitionsFrom_suffix (line : Nat) (text : List Char) :
    (definitionsFrom line text).2 <:+ text := by
  induction text using definitions_induction generalizing line with
  | step text found rest read inductionHypothesis =>
    rw [definitionsFrom_of_some read]
    exact (inductionHypothesis _).trans ((suffix_of_read read).trans (afterBlank_suffix text))
  | stop text missing =>
    rw [definitionsFrom_of_none missing]
    exact afterBlank_suffix text

/-- Each item of a file is a definition with the blank behind it. -/
theorem read_item (text : List Char) :
    grammar.read (.source (spaced definition)) text =
      (grammar.read definition text).map fun reading =>
        ((consumed text (afterBlank reading.2), reading.1), afterBlank reading.2) := by
  rw [read_source, spaced, thenSkip, read_map, read_seq]
  cases grammar.read definition text with
  | none => rfl
  | some reading => rfl

/-- The items of a file are placed where its definitions stand. -/
theorem place_readMany (line : Nat) (text : List Char) :
    let items := readMany (grammar.read (.source (spaced definition))) (afterBlank text)
    (place (line + newlines (consumed text (afterBlank text))) items.1, items.2) =
      definitionsFrom line text := by
  induction text using definitions_induction generalizing line with
  | step text found rest read inductionHypothesis =>
    have item := read_item (afterBlank text)
    rw [read, Option.map_some] at item
    have shorter := Nat.lt_of_le_of_lt (afterBlank_suffix rest).length_le (definition_length read)
    have blankLines := newlines_consumed (afterBlank_suffix text)
    have itemLines := newlines_consumed ((afterBlank_suffix rest).trans (suffix_of_read read))
    have restLines := newlines_consumed (afterBlank_suffix rest)
    have allLines := newlines_consumed ((suffix_of_read read).trans (afterBlank_suffix text))
    have sameLine : line + newlines (consumed text (afterBlank text)) +
          newlines (consumed (afterBlank text) (afterBlank rest)) =
        line + newlines (consumed text rest) + newlines (consumed rest (afterBlank rest)) := by
      omega
    rw [definitionsFrom_of_some read, ← inductionHypothesis]
    simp only [readMany_of_some item shorter, place, sameLine]
    rfl
  | stop text missing =>
    have item := read_item (afterBlank text)
    rw [missing, Option.map_none] at item
    rw [definitionsFrom_of_none missing]
    simp only [readMany_of_none item, place]

/-- A file is its definitions from the first line on, and it is accepted when nothing is left. -/
theorem parse_eq_definitionsFrom (text : List Char) :
    Document.parse text =
      if (definitionsFrom 1 text).2.isEmpty then .ok ⟨(definitionsFrom 1 text).1⟩
      else .error (SyntaxError.after (consumed text (definitionsFrom 1 text).2)) := by
  have placed := place_readMany 1 text
  rw [← placed]
  rfl

/-! ### Lines further down -/

def Span.shifted (lines : Nat) (span : Span) : Span :=
  ⟨span.line + lines, span.endLine + lines⟩

/-- The same definition some lines further down. -/
def Definition.shifted (lines : Nat) (definition : Definition) : Definition :=
  definition.withSpan (definition.span.map (Span.shifted lines))

/-- The same error some lines further down. -/
def SyntaxError.shifted (lines : Nat) (error : SyntaxError) : SyntaxError :=
  { error with line := error.line + lines }

/-- Starting some lines further down shifts a definition by as many lines. -/
theorem Found.on_add (found : Found) (line lines : Nat) :
    found.on (line + lines) = (found.on line).shifted lines := by
  obtain ⟨lead, extent, definition⟩ := found
  have first : line + lines + lead = line + lead + lines := by omega
  have last : line + lead + lines + extent = line + lead + extent + lines := by omega
  cases definition <;> simp only [Found.on, first, last] <;> rfl

/-- Starting some lines further down shifts all definitions by as many lines. -/
theorem definitionsFrom_add (line lines : Nat) (text : List Char) :
    definitionsFrom (line + lines) text =
      ((definitionsFrom line text).1.map (Definition.shifted lines),
        (definitionsFrom line text).2) := by
  induction text using definitions_induction generalizing line with
  | step text found rest read inductionHypothesis =>
    have start : line + lines + newlines (consumed text (afterBlank text)) =
        line + newlines (consumed text (afterBlank text)) + lines := by omega
    have next : line + lines + newlines (consumed text rest) =
        line + newlines (consumed text rest) + lines := by omega
    rw [definitionsFrom_of_some read, definitionsFrom_of_some read, start, next,
      inductionHypothesis, Found.on_add]
    rfl
  | stop text missing =>
    rw [definitionsFrom_of_none missing, definitionsFrom_of_none missing]
    rfl

/-! ### Concatenation -/

/-- The file behind an accepted one begins on a line of its own. -/
theorem newlines_append_line (first second : List Char) :
    newlines (first ++ '\n' :: second) = newlines first + (1 + newlines second) := by
  rw [newlines_append]
  simp only [newlines, List.count_cons_self, Nat.add_comm]

/-- The text in front of the last line does not matter for a column. -/
theorem SyntaxError.after_append (first second : List Char) :
    SyntaxError.after (first ++ '\n' :: second) =
      (SyntaxError.after second).shifted (1 + newlines first) := by
  have column : (first ++ '\n' :: second).reverse.takeWhile (· != '\n') =
      second.reverse.takeWhile (· != '\n') := by
    rw [List.reverse_append, List.reverse_cons, List.append_assoc, List.takeWhile_append]
    split
    · next complete =>
      have whole := (List.takeWhile_prefix (· != '\n')).eq_of_length complete
      rw [whole]
      exact List.append_nil _
    · rfl
  simp only [SyntaxError.after, SyntaxError.shifted, newlines_append_line, column,
    SyntaxError.mk.injEq, and_true]
  omega

/-- A blank item ends where it did when a line is appended. -/
theorem afterBlankItem_append_line {first rest : List Char} (second : List Char)
    (found : afterBlankItem first = some rest) :
    afterBlankItem (first ++ '\n' :: second) = some (rest ++ '\n' :: second) := by
  rcases afterBlankItem_append_or ('\n' :: second) found with longer | ⟨rfl, longer⟩
  · exact longer
  · exact longer

/-- A blank that ends a file goes on with the blank behind it. -/
theorem afterBlank_append_line {first : List Char} (second : List Char)
    (ends : afterBlank first = []) : afterBlank (first ++ '\n' :: second) = afterBlank second := by
  induction first using afterBlank.induct with
  | case1 first rest found inductionHypothesis =>
    rw [afterBlank_of_some found] at ends
    rw [afterBlank_of_some (afterBlankItem_append_line second found), inductionHypothesis ends]
  | case2 first missing =>
    rw [afterBlank_of_none missing] at ends
    subst ends
    exact afterBlank_of_some rfl

/-- A blank at the end of a file is passed in front of the next file. -/
theorem definitionsFrom_append_blank {line : Nat} {first : List Char} (second : List Char)
    (ends : afterBlank first = []) :
    definitionsFrom line (first ++ '\n' :: second) =
      definitionsFrom (line + (1 + newlines first)) second := by
  have blank := afterBlank_append_line second ends
  have lines := newlines_append_line first second
  have blankSuffix := afterBlank_suffix second
  have whole : second <:+ first ++ '\n' :: second :=
    (List.suffix_cons '\n' second).trans (List.suffix_append first _)
  have sameLine {rest : List Char} (suffix : rest <:+ second) :
      line + newlines (consumed (first ++ '\n' :: second) rest) =
        line + (1 + newlines first) + newlines (consumed second rest) := by
    have longer := newlines_consumed (suffix.trans whole)
    have shorter := newlines_consumed suffix
    omega
  cases read : grammar.read definition (afterBlank second) with
  | none =>
    rw [definitionsFrom_of_none read, ← blank, definitionsFrom_of_none (blank.symm ▸ read)]
  | some reading =>
    obtain ⟨found, rest⟩ := reading
    rw [definitionsFrom_of_some read, definitionsFrom_of_some (blank.symm ▸ read), blank,
      sameLine blankSuffix, sameLine ((suffix_of_read read).trans blankSuffix)]

/-- A semicolon stands in front of the end of every definition, also with a blank before it. -/
theorem semicolonAhead_of_read {text rest : List Char} {found : Found}
    (read : grammar.read definition (afterBlank text) = some (found, rest)) :
    SemicolonAhead text := by
  have behindBlank : SemicolonAhead (afterBlank text) :=
    statement_definition.ahead (by rw [read]; rfl)
  unfold SemicolonAhead at behindBlank ⊢
  rwa [landmark_afterBlank isLandmark_of_isSemicolon] at behindBlank

/-- The definitions of an accepted file go on with those of the file behind it. -/
theorem definitionsFrom_append {line : Nat} {first : List Char} (second : List Char)
    (complete : (definitionsFrom line first).2 = []) :
    definitionsFrom line (first ++ '\n' :: second) =
      ((definitionsFrom line first).1 ++
          (definitionsFrom (line + (1 + newlines first)) second).1,
        (definitionsFrom (line + (1 + newlines first)) second).2) := by
  induction first using definitions_induction generalizing line with
  | step first found rest read inductionHypothesis =>
    have blank := afterBlank_append ('\n' :: second) (semicolonAhead_of_read read)
    have readLonger := kept_definition read ('\n' :: second)
    rw [← blank] at readLonger
    rw [definitionsFrom_of_some read] at complete ⊢
    have lines := newlines_consumed ((suffix_of_read read).trans (afterBlank_suffix first))
    have sameLine : line + newlines (consumed first rest) + (1 + newlines rest) =
        line + (1 + newlines first) := by omega
    rw [definitionsFrom_of_some readLonger, blank, consumed_append, consumed_append,
      inductionHypothesis complete, sameLine]
    rfl
  | stop first missing =>
    rw [definitionsFrom_of_none missing] at complete ⊢
    exact definitionsFrom_append_blank second complete

/-- An accepted file goes on with the file behind it: the definitions of both stand in order, and
the definitions and the error of the second one stand as many lines further down as the first one
takes. -/
theorem parse_append {first : List Char} {document : Document}
    (accepted : Document.parse first = .ok document) (second : List Char) :
    Document.parse (first ++ '\n' :: second) =
      match Document.parse second with
      | .ok other =>
        .ok ⟨document.definitions ++
          other.definitions.map (Definition.shifted (1 + newlines first))⟩
      | .error error => .error (error.shifted (1 + newlines first)) := by
  rw [parse_eq_definitionsFrom] at accepted
  split at accepted <;> try contradiction
  next complete =>
    obtain rfl := Except.ok.inj accepted
    have empty := List.isEmpty_iff.mp complete
    have shifted := definitionsFrom_add 1 (1 + newlines first) second
    have suffix := (definitionsFrom_suffix 1 second).trans (List.suffix_cons '\n' second)
    rw [parse_eq_definitionsFrom, parse_eq_definitionsFrom, definitionsFrom_append second empty,
      shifted]
    by_cases last : (definitionsFrom 1 second).2.isEmpty = true
    · simp only [last, if_true]
    · simp only [last]
      have consumedBoth : consumed (first ++ '\n' :: second) (definitionsFrom 1 second).2 =
          first ++ '\n' :: consumed second (definitionsFrom 1 second).2 := by
        rw [consumed_append_front first suffix]
        exact congrArg _ (consumed_append_front ['\n'] (definitionsFrom_suffix 1 second))
      rw [consumedBoth, SyntaxError.after_append]
      rfl

/-- A text that is cut off behind its first definition is accepted up to there. -/
theorem parse_append_unclosed :
    Document.parse "typedef long A; // a".toList =
        .ok ⟨[.typedef { name := "A", type := "long", span := some ⟨1, 1⟩ }]⟩ ∧
      Document.parse ("typedef long A; // a".toList ++ '\n' :: "\ninterface A".toList) =
        .error ⟨3, 1⟩ := by
  have accepted : Document.parse "typedef long A; // a".toList =
      .ok ⟨[.typedef { name := "A", type := "long", span := some ⟨1, 1⟩ }]⟩ := by decide +kernel
  refine ⟨accepted, ?_⟩
  rw [parse_append accepted]
  decide +kernel

end InterfaceAudit.Idl
