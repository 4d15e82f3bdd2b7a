import InterfaceAudit.Proofs.Grammar.Confined
import InterfaceAudit.Proofs.Idl.Alternative

/-!
Definitions of a text that is cut off.
The landmarks in front of the cut stay where they are, so a definition that ends there is still read
from its first token to its last semicolon.
-/

namespace InterfaceAudit.Idl

open Grammar
open Grammar.Expression (skipThen thenSkip firstOf)

/-! ### Comments and landmarks in front of a cut -/

/-- What is left in front of a cut is no shorter than the text behind it. -/
theorem not_suffix_of_length_lt {rest extension text : List Char}
    (shorter : text.length < extension.length) : ¬rest ++ extension <:+ text := by
  intro suffix
  have longer := suffix.length_le
  rw [List.length_append] at longer
  omega

/-- A run that ends in front of the cut ends there without the rest. -/
theorem dropWhile_of_append {holds : Char → Bool} {text rest extension : List Char}
    (found : (text ++ extension).dropWhile holds = rest ++ extension) :
    text.dropWhile holds = rest := by
  induction text with
  | nil =>
    have same : (extension.dropWhile holds).length ≤ extension.length :=
      (List.dropWhile_suffix holds).length_le
    rw [List.nil_append] at found
    rw [found, List.length_append] at same
    rw [List.dropWhile_nil, List.length_eq_zero_iff.mp (by omega : rest.length = 0)]
  | cons c text inductionHypothesis =>
    by_cases held : holds c = true
    · rw [List.cons_append, List.dropWhile_cons_of_pos held] at found
      rw [List.dropWhile_cons_of_pos held, inductionHypothesis found]
    · rw [List.cons_append, List.dropWhile_cons_of_neg held, ← List.cons_append] at found
      rw [List.dropWhile_cons_of_neg held, List.append_cancel_right found]

/-- A block comment that ends in front of the cut ends there without the rest. -/
theorem afterBlockComment_of_append {text rest extension : List Char}
    (found : afterBlockComment (text ++ extension) = some (rest ++ extension)) :
    afterBlockComment text = some rest := by
  induction text using afterBlockComment.induct with
  | case1 =>
    have shorter := afterBlockComment_length found
    rw [List.nil_append, List.length_append] at shorter
    omega
  | case2 inner =>
    rw [List.append_cancel_right (Option.some.inj found)]
    rfl
  | case3 c inner notEnd inductionHypothesis =>
    rw [afterBlockComment]
    · rw [List.cons_append, afterBlockComment] at found
      · exact inductionHypothesis found
      · intro behind star same
        cases inner with
        | nil =>
          -- The end mark would reach over the cut.
          subst star
          rw [List.nil_append] at same
          subst same
          have left := Option.some.inj found
          have length := congrArg List.length left
          simp only [List.length_append, List.length_cons] at length
          omega
        | cons slash inner =>
          obtain ⟨rfl, -⟩ := List.cons.inj same
          exact notEnd inner star rfl
    · exact notEnd

/-- An element that ends in front of the cut ends there without the rest. -/
theorem afterElement_of_append {c : Char} {text rest extension : List Char}
    (found : afterElement c (text ++ extension) = some (rest ++ extension)) :
    afterElement c text = some rest := by
  rcases afterElement_cases found with ⟨rfl, closing, dropped⟩ | ⟨rfl, comment, same, left⟩ |
    ⟨rfl, comment, same, left⟩ | ⟨⟨notQuote, noComment⟩, same⟩
  · have closed : text.dropWhile (· != '\x22') = closing :: rest := dropWhile_of_append dropped
    exact afterElement_quote closed
  · obtain ⟨front, rfl⟩ := exists_append_of_suffix (left ▸ List.dropWhile_suffix _)
    rw [← List.cons_append] at same
    rw [List.append_cancel_right same]
    exact congrArg some (dropWhile_of_append left)
  · obtain ⟨front, rfl⟩ := exists_append_of_suffix (afterBlockComment_suffix left)
    rw [← List.cons_append] at same
    rw [List.append_cancel_right same]
    exact afterBlockComment_of_append left
  · obtain rfl := List.append_cancel_right same
    refine afterElement_of_standsAlone ⟨notQuote, fun isSlash => ?_⟩
    cases text with
    | nil => exact ⟨nofun, nofun⟩
    | cons mark text => exact noComment isSlash

section Landmarks

variable {stops : Char → Bool}

/-- A landmark and what follows it are an end of the text. -/
theorem landmark_suffix {text rest : List Char} {mark : Char}
    (found : landmark stops text = some (mark, rest)) : mark :: rest <:+ text := by
  induction text using landmark.induct stops with
  | case1 => simp [landmark] at found
  | case2 c behind stop =>
    rw [landmark_of_stops stop] at found
    obtain ⟨rfl, rfl⟩ := Prod.mk.inj (Option.some.inj found)
    exact List.suffix_refl _
  | case3 c behind goesOn after element inductionHypothesis =>
    rw [landmark_of_element (eq_false_of_ne_true goesOn) element] at found
    exact (inductionHypothesis found).trans
      ((afterElement_suffix element).trans (List.suffix_cons c behind))
  | case4 c behind goesOn missing =>
    rw [landmark_of_missing (eq_false_of_ne_true goesOn) missing] at found
    contradiction

/-- A landmark stays where it is when the text is cut off behind it. -/
theorem landmark_of_append {text rest extension : List Char} {mark : Char}
    (found : landmark stops (text ++ extension) = some (mark, rest ++ extension)) :
    landmark stops text = some (mark, rest) := by
  generalize whole : text ++ extension = long at found
  induction long using landmark.induct stops generalizing text with
  | case1 => simp [landmark] at found
  | case2 c behind stop =>
    rw [landmark_of_stops stop] at found
    obtain ⟨rfl, rfl⟩ := Prod.mk.inj (Option.some.inj found)
    have same : text = c :: rest := List.append_cancel_right (whole.trans (List.cons_append).symm)
    rw [same, landmark_of_stops stop]
  | case3 c behind goesOn after element inductionHypothesis =>
    have continues := eq_false_of_ne_true goesOn
    rw [landmark_of_element continues element] at found
    have suffix := (List.suffix_cons mark (rest ++ extension)).trans (landmark_suffix found)
    cases text with
    | nil =>
      rw [List.nil_append] at whole
      subst whole
      exact absurd (suffix.trans (afterElement_suffix element))
        (not_suffix_of_length_lt (by simp only [List.length_cons]; omega))
    | cons first text =>
      obtain ⟨rfl, rfl⟩ := List.cons.inj whole
      obtain ⟨front, rfl⟩ := exists_append_of_suffix suffix
      rw [landmark_of_element continues (afterElement_of_append element)]
      exact inductionHypothesis rfl found
  | case4 c behind goesOn missing =>
    rw [landmark_of_missing (eq_false_of_ne_true goesOn) missing] at found
    contradiction

/-- An element in front of other text ends at the same place of a longer text. -/
theorem afterElement_append {c : Char} {text rest : List Char} (extension : List Char)
    (found : afterElement c text = some rest) (nonempty : rest ≠ []) :
    afterElement c (text ++ extension) = some (rest ++ extension) := by
  rcases afterElement_cases found with ⟨rfl, closing, dropped⟩ | ⟨rfl, comment, rfl, rfl⟩ |
    ⟨rfl, comment, rfl, left⟩ | ⟨⟨notQuote, noComment⟩, rfl⟩
  · have stop : text.dropWhile (· != '\x22') ≠ [] := by
      rw [dropped]
      exact List.cons_ne_nil closing rest
    apply afterElement_quote
    rw [(takeWhile_append_of_stop extension stop).2, dropped, List.cons_append]
  · exact congrArg some (takeWhile_append_of_stop extension nonempty).2
  · exact afterBlockComment_append extension left
  · obtain ⟨mark, behind, rfl⟩ := List.exists_cons_of_ne_nil nonempty
    exact afterElement_of_standsAlone ⟨notQuote, noComment⟩

/-- A landmark stays where it is when the text goes on. -/
theorem landmark_append {text rest : List Char} {mark : Char} (extension : List Char)
    (found : landmark stops text = some (mark, rest)) :
    landmark stops (text ++ extension) = some (mark, rest ++ extension) := by
  induction text using landmark.induct stops with
  | case1 => simp [landmark] at found
  | case2 c behind stop =>
    rw [landmark_of_stops stop] at found
    obtain ⟨rfl, rfl⟩ := Prod.mk.inj (Option.some.inj found)
    exact landmark_of_stops stop _
  | case3 c behind goesOn after element inductionHypothesis =>
    have continues := eq_false_of_ne_true goesOn
    rw [landmark_of_element continues element] at found
    have nonempty : after ≠ [] := by
      rintro rfl
      simp [landmark] at found
    rw [List.cons_append,
      landmark_of_element continues (afterElement_append extension element nonempty)]
    exact inductionHypothesis found
  | case4 c behind goesOn missing =>
    rw [landmark_of_missing (eq_false_of_ne_true goesOn) missing] at found
    contradiction

end Landmarks

/-! ### Confined statements -/

/-- A semicolon that is ahead behind a token is ahead in front of it, on either side of the cut. -/
theorem severable : statementBoundary.Severable where
  scan_suffix {kind text taken rest} found := ⟨taken, (Token.scan_split found).1⟩
  inside_of_scan {kind text taken rest extension} quiet found ahead := by
    obtain ⟨⟨mark, last⟩, marked⟩ := Option.isSome_iff_exists.mp ahead
    have longer := landmark_append extension marked
    rw [← landmark_scan isLandmark_of_isSemicolon quiet found] at longer
    change (landmark isSemicolon text).isSome = true
    rw [landmark_of_append longer]
    rfl
  inside_of_closing {kind text taken rest extension} isSymbol found := by
    obtain rfl := isSymbol
    have marked : landmark isSemicolon (text ++ extension) = some (';', rest ++ extension) := by
      rw [scan_symbol found]
      exact landmark_of_stops (by decide) _
    change (landmark isSemicolon text).isSome = true
    rw [landmark_of_append marked]
    rfl

/-- A statement that ends in front of the cut is read without the rest. -/
theorem Statement.confined {Value : Type} {phrase : Phrase Value} (statement : Statement phrase)
    (ends : phrase.EndsIn (Token.Quiet isSemicolon) IsSemicolon) : Confined grammar phrase :=
  severable.confined_of_endsIn ends statement.closes statement.within

/-- A phrase with a confined statement behind it is confined. -/
theorem confined_seq_statement {First Second : Type} {first : Phrase First}
    {second : Phrase Second} (confined : Confined grammar second) (statement : Statement second)
    (within : first.Within (Token.Quiet isSemicolon) True) : Confined grammar (.seq first second) :=
  severable.confined_seq within confined statement.ahead

/-- A body is confined when its items are statements with nothing behind the semicolon. -/
theorem confined_body {Value : Type} {item : Phrase Value} (statement : Statement item)
    (ends : item.EndsIn (Token.Quiet isSemicolon) IsSemicolon)
    (takes : item.mayBeEmpty progressive.emptyToken = false) :
    Confined grammar (body (.many (spaced item))) := by
  let last : Phrase (List Char × List Char) := .seq (spaced (symbol '\x7d')) semicolon
  have closing : Statement last := by decide
  have blankWithin : blank.Within (Token.Quiet isSemicolon) True := by decide
  have opening : (spaced (symbol '\x7b')).Within (Token.Quiet isSemicolon) True := by decide
  have items : Confined grammar (.seq (.many (spaced item)) last) :=
    severable.confined_many_seq progressive ends statement.within takes blankWithin
      scan_blank_isSome (closing.confined (by decide)) closing.ahead
  have itemsStatement : Statement (thenSkip (.many (spaced item)) last) :=
    ⟨.inr closing.closes, ⟨statement.within, blankWithin.mono fun _ => .inl⟩, closing.within⟩
  exact (confined_seq_statement (items.map Prod.fst) itemsStatement opening).map Prod.snd

/-! ### Confined definitions -/

/-- The members of a body are confined to the text in front of the cut. -/
theorem confined_members : Confined grammar members := by
  have statement : Statement member := by decide
  exact (confined_body statement (by decide) (by decide)).map _

/-- The fields of a body are confined to the text in front of the cut. -/
theorem confined_fields : Confined grammar (body (.many (spaced field))) := by
  have statement : Statement field := by decide
  exact confined_body statement (by decide) (by decide)

theorem confined_named : Confined grammar (.seq (spaced name) members) :=
  confined_seq_statement confined_members bodied_members.statement (by decide)

/-- Words in front of a name and its members change nothing. -/
theorem confined_words_named {First Value : Type} {first : Phrase First}
    (within : first.Within (Token.Quiet isSemicolon) True)
    (build : String × List Member → Value) :
    Confined grammar (.map build (skipThen first (.seq (spaced name) members))) :=
  ((confined_seq_statement confined_named bodied_named.statement within).map _).map _

/-- What passes no semicolon may stand in front of a statement. -/
theorem Statement.behind {First Second : Type} {first : Phrase First} {second : Phrase Second}
    (statement : Statement second) (within : first.Within (Token.Quiet isSemicolon) True) :
    Statement (.seq first second) :=
  ⟨.inr statement.closes, within.mono fun _ => .inl, statement.within⟩

/-- Words, a name and an inheritance may stand in front of a confined statement. -/
theorem confined_words_inheriting {First Content Value : Type} {first : Phrase First}
    {content : Phrase Content} (confined : Confined grammar content)
    (statement : Statement content) (within : first.Within (Token.Quiet isSemicolon) True)
    (build : String × Option String × Content → Value) :
    Confined grammar
      (.map build (skipThen first (.seq (spaced name) (.seq (spaced inheritance) content)))) := by
  have inheritanceWithin : (spaced inheritance).Within (Token.Quiet isSemicolon) True := by decide
  have nameWithin : (spaced name).Within (Token.Quiet isSemicolon) True := by decide
  have derivedStatement := statement.behind inheritanceWithin
  have derived := confined_seq_statement confined statement inheritanceWithin
  have named := confined_seq_statement derived derivedStatement nameWithin
  have whole := confined_seq_statement named (derivedStatement.behind nameWithin) within
  exact (whole.map _).map _

theorem confined_interface : Confined grammar interface :=
  confined_words_inheriting confined_members bodied_members.statement (by decide) _

theorem confined_dictionary : Confined grammar dictionary :=
  confined_words_inheriting confined_fields bodied_fields.statement (by decide) _

theorem confined_mixin : Confined grammar mixin := confined_words_named (by decide) _

theorem confined_namespaceDefinition : Confined grammar namespaceDefinition :=
  confined_words_named (by decide) _

/-- The definitions of the last group are confined to the text in front of the cut. -/
theorem confined_plainDefinition : Confined grammar plainDefinition := by
  have inclusionStatement : Statement inclusion := by decide
  have typedefStatement : Statement typedef := by decide
  have enumerationStatement : Statement enumeration := by decide
  have remaining : Confined grammar (.choice typedef inclusion) :=
    .choice (typedefStatement.kept (by decide)) (typedefStatement.confined (by decide))
      (inclusionStatement.confined (by decide))
  have simple : Confined grammar (firstOf enumeration [typedef, inclusion]) :=
    .choice (enumerationStatement.kept (by decide)) (enumerationStatement.confined (by decide))
      remaining
  have fromDictionary : Confined grammar (firstOf dictionary [enumeration, typedef, inclusion]) :=
    .choice bodied_dictionary.kept confined_dictionary simple
  exact .choice bodied_namespaceDefinition.kept confined_namespaceDefinition fromDictionary

/-- The definitions of the first group are confined to the text in front of the cut. -/
theorem confined_interfaceDefinition : Confined grammar interfaceDefinition := by
  have functionStatement : Statement callbackFunction := by decide
  have interfaces : Confined grammar (.choice mixin interface) :=
    .choice bodied_mixin.kept confined_mixin confined_interface
  have functions : Confined grammar (firstOf callbackFunction [mixin, interface]) :=
    .choice (functionStatement.kept (by decide)) (functionStatement.confined (by decide)) interfaces
  exact .choice bodied_callbackInterface.kept (confined_words_named (by decide) _) functions

/-- Parts are confined to the text in front of the cut. -/
theorem confined_partialDefinition : Confined grammar partialDefinition := by
  have fromDictionary : Confined grammar (.choice dictionary namespaceDefinition) :=
    .choice bodied_dictionary.kept confined_dictionary confined_namespaceDefinition
  have fromInterface : Confined grammar (firstOf interface [dictionary, namespaceDefinition]) :=
    .choice bodied_interface.kept confined_interface fromDictionary
  have parts : Confined grammar partDefinition :=
    .choice bodied_mixin.kept confined_mixin fromInterface
  have statement : Statement (located partDefinition) := by decide
  have locatedParts : Confined grammar (located partDefinition) := parts.source.map _
  exact (confined_seq_statement locatedParts statement (by decide)).map _

/-- A declaration that ends in front of the cut is read without the rest. -/
theorem confined_declaration : Confined grammar declaration := by
  have later : Confined grammar laterDefinition :=
    .choice kept_partialDefinition confined_partialDefinition
      (confined_plainDefinition.source.map _)
  exact .choice (kept_interfaceDefinition.source.map _) (confined_interfaceDefinition.source.map _)
    later

/-- A definition is read from every text that is cut off behind it. -/
theorem confined_definition : Confined grammar definition := by
  have statement : Statement declaration := by decide
  exact (confined_seq_statement confined_declaration statement (by decide)).map _

end InterfaceAudit.Idl
