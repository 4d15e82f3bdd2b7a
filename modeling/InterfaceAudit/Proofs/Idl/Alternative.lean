import InterfaceAudit.Proofs.Idl.Statement

/-!
The alternatives of a declaration.
An alternative with a body fails either in front of its brace, which the next landmark decides, or
behind it, where every other alternative with a body for the same words reads the same members.
-/

namespace InterfaceAudit.Idl

open Grammar
open Grammar.Expression (skipThen thenSkip firstOf)

variable {First Second Value : Type}

/-! ### Keywords -/

/-- Alternatives that begin with different keywords exclude each other. -/
theorem excludes_of_keywords (first : Phrase First) (second : Phrase Second)
    (firstWord secondWord : Keyword) (firstStarts : first.StartsWith (.keyword firstWord))
    (secondStarts : second.StartsWith (.keyword secondWord)) (different : firstWord ≠ secondWord)
    (statement : Statement second) : Excludes grammar first second :=
  statementBoundary.excludes_of_startsWith firstStarts secondStarts trivial
    (fun _ firstPresent secondPresent =>
      different (scanKeyword_unique firstPresent secondPresent)) statement.ahead

/-! ### Landmarks -/

/-- Wherever the phrase matches, the next landmark is known. -/
def Reaches (known : Char → List Char → Prop) (phrase : Phrase Value) : Prop :=
  ∀ ⦃text : List Char⦄, (grammar.read phrase text).isSome = true →
    ∃ mark rest, landmark isLandmark text = some (mark, rest) ∧ known mark rest

/-- Where the phrase fails but would match on a longer text, it has opened a body. -/
def Opens (failed : List Char → Prop) (phrase : Phrase Value) : Prop :=
  ∀ ⦃text : List Char⦄ (extension : List Char), SemicolonAhead text →
    grammar.read phrase text = none → (grammar.read phrase (text ++ extension)).isSome = true →
    ∃ rest, landmark isLandmark text = some ('\x7b', rest) ∧ failed rest

/-- An opened body excludes whatever reaches another landmark or matches the body. -/
theorem excludes_of_landmark {first : Phrase First} {second : Phrase Second}
    {failed : List Char → Prop} {known : Char → List Char → Prop} (opens : Opens failed first)
    (reaches : Reaches known second) (statement : Statement second)
    (conflict : ∀ rest, failed rest → ¬known '\x7b' rest) : Excludes grammar first second := by
  intro text extension missing present
  rw [← Option.not_isSome_iff_eq_none]
  intro found
  obtain ⟨rest, opened, failedRest⟩ := opens extension (statement.ahead present) missing found
  obtain ⟨mark, other, reached, knownRest⟩ := reaches present
  rw [opened] at reached
  obtain ⟨rfl, rfl⟩ := Prod.mk.inj (Option.some.inj reached)
  exact conflict rest failedRest knownRest

/-- The head of an alternative keeps the next landmark. -/
theorem landmark_read {first : Phrase First} (within : first.Within (Token.Quiet isLandmark) False)
    {text rest : List Char} {value : First} (found : grammar.read first text = some (value, rest)) :
    landmark isLandmark text = landmark isLandmark rest :=
  read_related_of_ruleFree (Token.Quiet isLandmark)
    (fun text rest => landmark isLandmark text = landmark isLandmark rest) (fun _ => rfl) Eq.trans
    grammar (fun quiet found => landmark_scan (fun _ => id) quiet found) first within found

namespace Reaches

variable {known : Char → List Char → Prop}

/-- The value that is built does not change which landmark is reached. -/
theorem map {inner : Phrase First} (reaches : Reaches known inner) (build : First → Value) :
    Reaches known (.map build inner) := by
  intro text present
  rw [read_map, Option.isSome_map] at present
  exact reaches present

/-- What comes first passes no landmark, so the second part decides which one is reached. -/
theorem after {first : Phrase First} {second : Phrase Second} (reaches : Reaches known second)
    (within : first.Within (Token.Quiet isLandmark) False) :
    Reaches known (.seq first second) := by
  intro text present
  obtain ⟨⟨value, rest⟩, found⟩ := Option.isSome_iff_exists.mp present
  obtain ⟨middle, firstFound, secondFound⟩ := (read_seq_eq_some grammar text).mp found
  rw [landmark_read within firstFound]
  exact reaches (by rw [secondFound]; rfl)

/-- The first part of a sequence reaches its landmark before the second part begins. -/
theorem before {first : Phrase First} {second : Phrase Second} (reaches : Reaches known first) :
    Reaches known (.seq first second) := by
  intro text present
  obtain ⟨⟨value, rest⟩, found⟩ := Option.isSome_iff_exists.mp present
  obtain ⟨middle, firstFound, -⟩ := (read_seq_eq_some grammar text).mp found
  exact reaches (by rw [firstFound]; rfl)

/-- A mark that is looked for is the landmark itself. -/
theorem mark {mark : Char} (stop : isLandmark mark = true) :
    Reaches (fun other _ => other = mark) (symbol mark) := by
  intro text present
  obtain ⟨⟨taken, rest⟩, found⟩ := Option.isSome_iff_exists.mp present
  rw [scan_symbol found]
  exact ⟨mark, rest, landmark_of_stops stop rest, rfl⟩

end Reaches

/-- A body begins with its brace. -/
theorem brace_of_body {content : Phrase Value} {text : List Char}
    (present : (grammar.read (body content) text).isSome = true) :
    ∃ rest, text = '\x7b' :: rest := by
  obtain ⟨⟨value, rest⟩, found⟩ := Option.isSome_iff_exists.mp present
  obtain ⟨pair, pairFound, -⟩ := (read_map_eq_some grammar text).mp found
  obtain ⟨middle, opened, -⟩ := (read_seq_eq_some grammar text).mp pairFound
  obtain ⟨marked, markedFound, -⟩ := (read_map_eq_some grammar text).mp opened
  obtain ⟨start, symbolFound, -⟩ := (read_seq_eq_some grammar text).mp markedFound
  exact ⟨start, scan_symbol symbolFound⟩

/-- The body is not closed behind its brace. -/
def Unclosed (content : Phrase Value) (rest : List Char) : Prop :=
  grammar.read (body content) ('\x7b' :: rest) = none

/-- A body reaches its own brace, behind which it is closed. -/
theorem reaches_body (content : Phrase Value) :
    Reaches (fun mark rest => mark = '\x7b' ∧ ¬Unclosed content rest) (body content) := by
  intro text present
  obtain ⟨rest, rfl⟩ := brace_of_body present
  refine ⟨'\x7b', rest, landmark_of_stops (by decide) rest, rfl, fun unclosed => ?_⟩
  rw [unclosed] at present
  contradiction

namespace Opens

variable {failed : List Char → Prop}

/-- The value that is built does not change where a phrase can open. -/
theorem map {inner : Phrase First} (opens : Opens failed inner) (build : First → Value) :
    Opens failed (.map build inner) := by
  intro text extension ahead missing found
  rw [read_map, Option.map_eq_none_iff] at missing
  rw [read_map, Option.isSome_map] at found
  exact opens extension ahead missing found

/-- Taking the source along does not change where a phrase can open. -/
theorem source {inner : Phrase Value} (opens : Opens failed inner) :
    Opens failed (.source inner) := by
  intro text extension ahead missing found
  rw [read_source, Option.map_eq_none_iff] at missing
  rw [read_source, Option.isSome_map] at found
  exact opens extension ahead missing found

/-- A weaker condition on what follows the brace is met as well. -/
theorem mono {other : List Char → Prop} {phrase : Phrase Value} (opens : Opens failed phrase)
    (weaker : ∀ rest, failed rest → other rest) : Opens other phrase := by
  intro text extension ahead missing found
  obtain ⟨rest, opened, failedRest⟩ := opens extension ahead missing found
  exact ⟨rest, opened, weaker rest failedRest⟩

/-- A choice that opens on the longer text opens in one of its alternatives. -/
theorem choice {first second : Phrase Value} (firstOpens : Opens failed first)
    (secondOpens : Opens failed second) : Opens failed (.choice first second) := by
  intro text extension ahead missing found
  rw [read_choice, Option.or_eq_none_iff] at missing
  rw [read_choice, Option.isSome_or, Bool.or_eq_true] at found
  rcases found with firstFound | secondFound
  · exact firstOpens extension ahead missing.1 firstFound
  · exact secondOpens extension ahead missing.2 secondFound

/-- The head of an alternative is read alike on a longer text, so the body behind it is opened. -/
theorem after {first : Phrase First} {second : Phrase Second} (opens : Opens failed second)
    (landmarkWithin : first.Within (Token.Quiet isLandmark) False)
    (within : first.Within (Token.Quiet isSemicolon) True) :
    Opens failed (.seq first second) := by
  intro text extension ahead missing found
  have same := statementBoundary.read_append extension first (within.endsIn _) ahead
  rw [read_seq] at missing
  rw [read_seq, same] at found
  cases firstFound : grammar.read first text with
  | none =>
    rw [firstFound] at found
    contradiction
  | some reading =>
    obtain ⟨value, middle⟩ := reading
    rw [firstFound] at missing found
    simp only [extended_some, Option.bind_some, Option.isSome_map, Option.map_eq_none_iff]
      at missing found
    have aheadMiddle :=
      (statementBoundary.inside_iff_of_read first within firstFound).mp ahead
    rw [landmark_read landmarkWithin firstFound]
    exact opens extension aheadMiddle missing found

end Opens

/-- A body that fails is unclosed when it would match on a longer text. -/
theorem opens_body (content : Phrase Value) : Opens (Unclosed content) (body content) := by
  intro text extension ahead missing found
  obtain ⟨other, same⟩ := brace_of_body found
  cases text with
  | nil => exact absurd (mem_of_semicolonAhead ahead) List.not_mem_nil
  | cons c rest =>
    obtain ⟨rfl, -⟩ := List.cons.inj same
    exact ⟨rest, landmark_of_stops (by decide) rest, missing⟩

/-! ### Alternatives with a body -/

/-- The phrase is a statement with the given content in its body. -/
structure Bodied {Content : Type} (content : Phrase Content) (phrase : Phrase Value) : Prop where
  statement : Statement phrase
  kept : Kept grammar phrase
  opens : Opens (Unclosed content) phrase

namespace Bodied

variable {Content : Type} {content : Phrase Content}

/-- The value that is built does not change the body of a phrase. -/
theorem map {inner : Phrase First} (bodied : Bodied content inner) (build : First → Value) :
    Bodied content (.map build inner) where
  statement := ⟨bodied.statement.closes, bodied.statement.within⟩
  kept := bodied.kept.map build
  opens := bodied.opens.map build

/-- What stands in front of a phrase with a body passes neither a landmark nor a semicolon. -/
theorem after {first : Phrase First} {second : Phrase Second} (bodied : Bodied content second)
    (landmarkWithin : first.Within (Token.Quiet isLandmark) False)
    (within : first.Within (Token.Quiet isSemicolon) True) :
    Bodied content (.seq first second) where
  statement := ⟨.inr bodied.statement.closes, within.mono fun _ => .inl, bodied.statement.within⟩
  kept := kept_seq_statement bodied.kept bodied.statement within
  opens := bodied.opens.after landmarkWithin within

end Bodied

/-- The braces of an interface hold members. -/
theorem bodied_members : Bodied (.many (spaced member)) members where
  statement := by decide
  kept := kept_members
  opens := (opens_body _).map _

/-- The braces of a dictionary hold fields. -/
theorem bodied_fields : Bodied (.many (spaced field)) (body (.many (spaced field))) where
  statement := by decide
  kept := kept_fields
  opens := opens_body _

theorem bodied_named : Bodied (.many (spaced member)) (.seq (spaced name) members) :=
  bodied_members.after (by decide) (by decide)

theorem bodied_callbackInterface : Bodied (.many (spaced member)) callbackInterface :=
  ((bodied_named.after (by decide) (by decide)).map _).map _

theorem bodied_mixin : Bodied (.many (spaced member)) mixin :=
  ((bodied_named.after (by decide) (by decide)).map _).map _

theorem bodied_namespaceDefinition : Bodied (.many (spaced member)) namespaceDefinition :=
  ((bodied_named.after (by decide) (by decide)).map _).map _

/-- Neither the name nor the parent of an interface passes a landmark. -/
theorem bodied_interface : Bodied (.many (spaced member)) interface := by
  have derived : Bodied (.many (spaced member)) (.seq (spaced inheritance) members) :=
    bodied_members.after (by decide) (by decide)
  have named : Bodied (.many (spaced member))
      (.seq (spaced name) (.seq (spaced inheritance) members)) :=
    derived.after (by decide) (by decide)
  exact ((named.after (by decide) (by decide)).map _).map _

/-- Neither the name nor the parent of a dictionary passes a landmark. -/
theorem bodied_dictionary : Bodied (.many (spaced field)) dictionary := by
  have derived : Bodied (.many (spaced field))
      (.seq (spaced inheritance) (body (.many (spaced field)))) :=
    bodied_fields.after (by decide) (by decide)
  have named : Bodied (.many (spaced field))
      (.seq (spaced name) (.seq (spaced inheritance) (body (.many (spaced field))))) :=
    derived.after (by decide) (by decide)
  exact ((named.after (by decide) (by decide)).map _).map _

/-! ### Exclusion of the later alternatives -/

/-- An alternative that ends with its only semicolon excludes every statement. -/
theorem excludes_of_endsIn {first : Phrase First} {second : Phrase Second}
    (ends : first.EndsIn (Token.Quiet isSemicolon) IsSemicolon) (statement : Statement second) :
    Excludes grammar first second :=
  statementBoundary.excludes_of_endsIn ends statement.ahead

/-- A callback function reaches its sign of equality before any brace. -/
theorem callbackInterface_excludes_callbackFunction :
    Excludes grammar callbackInterface callbackFunction := by
  have equality : Reaches (fun other _ => other = '=') (spaced (symbol '=')) :=
    ((Reaches.mark (by decide)).before).map _
  have reaches : Reaches (fun other _ => other = '=') callbackFunction :=
    ((((equality.after (by decide)).map _).before.after (by decide)).map _).map _
  refine excludes_of_landmark bodied_callbackInterface.opens reaches (by decide) ?_
  intro rest _ same
  contradiction

/-- An interface reads the members that a mixin would read. -/
theorem mixin_excludes_interface : Excludes grammar mixin interface := by
  have membersReach := (reaches_body (.many (spaced member))).map
    (fun members => members.filterMap id)
  have derived : Reaches _ (.seq (spaced inheritance) members) := membersReach.after (by decide)
  have named : Reaches _ (.seq (spaced name) (.seq (spaced inheritance) members)) :=
    derived.after (by decide)
  have reaches : Reaches _ interface := ((named.after (by decide)).map _).map _
  refine excludes_of_landmark bodied_mixin.opens reaches bodied_interface.statement ?_
  intro rest unclosed closed
  exact closed.2 unclosed

/-- An inclusion reaches its semicolon before any brace. -/
theorem excludes_inclusion {first : Phrase First} {failed : List Char → Prop}
    (opens : Opens failed first) : Excludes grammar first inclusion := by
  have closing : Reaches (fun other _ => other = ';') (.seq (spaced name) semicolon) :=
    (Reaches.mark (by decide)).after (by decide)
  have reaches : Reaches (fun other _ => other = ';') inclusion :=
    ((closing.map _).after (by decide)).map _
  refine excludes_of_landmark opens reaches (by decide) ?_
  intro rest _ same
  contradiction

/-- A body behind another keyword excludes the plain alternatives without a list of members. -/
theorem excludes_simple {first : Phrase First} {failed : List Char → Prop} (word : Keyword)
    (opens : Opens failed first) (starts : first.StartsWith (.keyword word))
    (notEnumeration : word ≠ .enumeration) (notTypedef : word ≠ .typedef) :
    Excludes grammar first (firstOf enumeration [typedef, inclusion]) := by
  have excludesEnumeration : Excludes grammar first enumeration :=
    excludes_of_keywords first enumeration word .enumeration starts rfl notEnumeration (by decide)
  have excludesTypedef : Excludes grammar first typedef :=
    excludes_of_keywords first typedef word .typedef starts rfl notTypedef (by decide)
  exact excludesEnumeration.choice_right (excludesTypedef.choice_right (excludes_inclusion opens))

/-- The alternatives without parts or callbacks. -/
def plainDefinition : Phrase Definition :=
  firstOf namespaceDefinition [dictionary, enumeration, typedef, inclusion]

/-- A body behind another keyword excludes every plain alternative. -/
theorem excludes_plainDefinition {first : Phrase First} {failed : List Char → Prop}
    (word : Keyword) (opens : Opens failed first) (starts : first.StartsWith (.keyword word))
    (other : word ∉ [Keyword.namespace, .dictionary, .enumeration, .typedef]) :
    Excludes grammar first plainDefinition := by
  simp only [List.mem_cons, List.not_mem_nil, or_false, not_or] at other
  obtain ⟨notNamespace, notDictionary, notEnumeration, notTypedef⟩ := other
  have excludesNamespace : Excludes grammar first namespaceDefinition :=
    excludes_of_keywords first namespaceDefinition word .namespace starts rfl notNamespace
      bodied_namespaceDefinition.statement
  have excludesDictionary : Excludes grammar first dictionary :=
    excludes_of_keywords first dictionary word .dictionary starts rfl notDictionary
      bodied_dictionary.statement
  exact excludesNamespace.choice_right (excludesDictionary.choice_right
    (excludes_simple word opens starts notEnumeration notTypedef))

/-! ### Kept declarations -/

/-- The definitions without a callback or an interface are kept on longer texts. -/
theorem kept_plainDefinition : Kept grammar plainDefinition := by
  have inclusionStatement : Statement inclusion := by decide
  have typedefStatement : Statement typedef := by decide
  have enumerationStatement : Statement enumeration := by decide
  have remaining : Kept grammar (.choice typedef inclusion) :=
    (typedefStatement.kept (by decide)).choice (inclusionStatement.kept (by decide))
      (excludes_of_endsIn (by decide) inclusionStatement)
  have simple : Kept grammar (firstOf enumeration [typedef, inclusion]) :=
    (enumerationStatement.kept (by decide)).choice remaining
      (excludes_of_endsIn (by decide) (by decide))
  have fromDictionary : Kept grammar (firstOf dictionary [enumeration, typedef, inclusion]) :=
    bodied_dictionary.kept.choice simple
      (excludes_simple .dictionary bodied_dictionary.opens rfl (by decide) (by decide))
  refine bodied_namespaceDefinition.kept.choice fromDictionary ?_
  have excludesDictionary : Excludes grammar namespaceDefinition dictionary :=
    excludes_of_keywords namespaceDefinition dictionary .namespace .dictionary rfl rfl (by decide)
      bodied_dictionary.statement
  exact excludesDictionary.choice_right
    (excludes_simple .namespace bodied_namespaceDefinition.opens rfl (by decide) (by decide))

/-- The alternatives that begin with a callback or an interface. -/
def interfaceDefinition : Phrase Definition :=
  firstOf callbackInterface [callbackFunction, mixin, interface]

/-- The definitions of the first group are kept on longer texts. -/
theorem kept_interfaceDefinition : Kept grammar interfaceDefinition := by
  have functionStatement : Statement callbackFunction := by decide
  have interfaceStatement : Statement (.choice mixin interface) := by decide
  have interfaces : Kept grammar (.choice mixin interface) :=
    bodied_mixin.kept.choice bodied_interface.kept mixin_excludes_interface
  have functions : Kept grammar (firstOf callbackFunction [mixin, interface]) :=
    (functionStatement.kept (by decide)).choice interfaces
      (excludes_of_endsIn (by decide) interfaceStatement)
  refine bodied_callbackInterface.kept.choice functions ?_
  have excludesInterfaces : Excludes grammar callbackInterface (.choice mixin interface) :=
    excludes_of_keywords callbackInterface (.choice mixin interface) .callback .interface rfl
      ⟨rfl, rfl⟩ (by decide) interfaceStatement
  exact callbackInterface_excludes_callbackFunction.choice_right excludesInterfaces

/-- The definitions that come in parts, and namespaces. -/
def partDefinition : Phrase Definition :=
  firstOf mixin [interface, dictionary, namespaceDefinition]

/-- The definitions that come in parts are kept on longer texts. -/
theorem kept_partDefinition : Kept grammar partDefinition := by
  have namespaceStatement := bodied_namespaceDefinition.statement
  have remaining : Kept grammar (.choice dictionary namespaceDefinition) :=
    bodied_dictionary.kept.choice bodied_namespaceDefinition.kept
      (excludes_of_keywords dictionary namespaceDefinition .dictionary .namespace rfl rfl
        (by decide) namespaceStatement)
  have excludesRemaining {first : Phrase Definition}
      (starts : first.StartsWith (.keyword .interface)) :
      Excludes grammar first (.choice dictionary namespaceDefinition) :=
    (excludes_of_keywords first dictionary .interface .dictionary starts rfl (by decide)
      bodied_dictionary.statement).choice_right
      (excludes_of_keywords first namespaceDefinition .interface .namespace starts rfl (by decide)
        namespaceStatement)
  have fromInterface : Kept grammar (firstOf interface [dictionary, namespaceDefinition]) :=
    bodied_interface.kept.choice remaining (excludesRemaining rfl)
  exact bodied_mixin.kept.choice fromInterface
    (mixin_excludes_interface.choice_right (excludesRemaining rfl))

/-- A part that succeeds only on the longer text has its brace in front of the cut. -/
theorem opens_partDefinition : Opens (fun _ => True) partDefinition := by
  have opened {Content : Type} {content : Phrase Content} {phrase : Phrase Definition}
      (bodied : Bodied content phrase) : Opens (fun _ => True) phrase :=
    bodied.opens.mono fun _ _ => trivial
  exact (opened bodied_mixin).choice ((opened bodied_interface).choice
    ((opened bodied_dictionary).choice (opened bodied_namespaceDefinition)))

/-- The word for a part in front of a definition keeps it kept. -/
theorem kept_partialDefinition : Kept grammar partialDefinition := by
  have statement : Statement (located partDefinition) := by decide
  have kept : Kept grammar (located partDefinition) := kept_partDefinition.source.map _
  exact (kept_seq_statement kept statement (by decide)).map _

theorem opens_partialDefinition : Opens (fun _ => True) partialDefinition :=
  ((opens_partDefinition.source.map _).after (by decide) (by decide)).map _

/-- The alternatives behind the interfaces and callbacks. -/
def laterDefinition : Phrase Found :=
  .choice partialDefinition (located plainDefinition)

/-- The two later groups of a declaration are kept together. -/
theorem kept_laterDefinition : Kept grammar laterDefinition := by
  have plain : Excludes grammar partialDefinition plainDefinition :=
    excludes_plainDefinition .partial opens_partialDefinition rfl (by decide)
  exact kept_partialDefinition.choice (kept_plainDefinition.source.map _)
    (plain.source_right.map_right _)

/-- Where the first group succeeds only on the longer text, the later groups fail. -/
theorem interfaceDefinition_excludes : Excludes grammar interfaceDefinition laterDefinition := by
  have partialStatement : Statement partialDefinition := by decide
  have laterStatement : Statement laterDefinition := by decide
  have ofBody {first : Phrase Definition} {failed : List Char → Prop} (word : Keyword)
      (opens : Opens failed first) (starts : first.StartsWith (.keyword word))
      (notPartial : word ≠ .partial)
      (other : word ∉ [Keyword.namespace, .dictionary, .enumeration, .typedef]) :
      Excludes grammar first laterDefinition := by
    have excludesPartial : Excludes grammar first partialDefinition :=
      excludes_of_keywords first partialDefinition word .partial starts rfl notPartial
        partialStatement
    have plain := excludes_plainDefinition word opens starts other
    exact excludesPartial.choice_right (plain.source_right.map_right _)
  have callbackInterfaceExcludes :=
    ofBody .callback bodied_callbackInterface.opens rfl (by decide) (by decide)
  have callbackFunctionExcludes : Excludes grammar callbackFunction laterDefinition :=
    excludes_of_endsIn (by decide) laterStatement
  have mixinExcludes := ofBody .interface bodied_mixin.opens rfl (by decide) (by decide)
  have interfaceExcludes := ofBody .interface bodied_interface.opens rfl (by decide) (by decide)
  exact callbackInterfaceExcludes.choice_left
    (callbackFunctionExcludes.choice_left (mixinExcludes.choice_left interfaceExcludes))

/-- A declaration is kept on longer texts, whatever its alternatives would read there. -/
theorem kept_declaration : Kept grammar declaration :=
  (kept_interfaceDefinition.source.map _).choice kept_laterDefinition
    (interfaceDefinition_excludes.source_left.map_left _)

theorem statement_definition : Statement definition := by decide

/-- What follows a definition has no influence on how it is read. -/
theorem kept_definition : Kept grammar definition := by
  have statement : Statement declaration := by decide
  exact (kept_seq_statement kept_declaration statement (by decide)).map _

end InterfaceAudit.Idl
