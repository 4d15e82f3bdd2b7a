import InterfaceAudit.Proofs.Idl.Concatenation
import InterfaceAudit.Proofs.Idl.TypeText
import InterfaceAudit.Proofs.Text.Pieces

/-!
Lines of definitions.
The spans of a document follow one another through its text, and the lines of each span hold the
names of its definition and the semicolon that ends it.
-/

namespace InterfaceAudit

namespace Text

/-! ### Words on lines -/

/-- A word stands on the line of a number; lines are counted from one. -/
def HoldsOn (text word : List Char) (number : Nat) : Prop :=
  ∃ line, word <:+: line ∧ (number, line) ∈ numbered 1 (splitOn '\n' text)

/-- Every line feed in front of a word moves it down by one line. -/
theorem exists_numbered_append {word : List Char} (free : '\n' ∉ word) (start : Nat)
    (front back : List Char) :
    ∃ line, word <:+: line ∧
      (start + newlines front, line) ∈ numbered start (splitOn '\n' (front ++ (word ++ back))) := by
  induction front generalizing start with
  | nil =>
    obtain ⟨piece, pieces, split⟩ := List.exists_cons_of_ne_nil (splitOn_ne_nil '\n' back)
    rw [List.nil_append, splitOn_append_of_not_mem free split]
    exact ⟨word ++ piece, (List.prefix_append word piece).isInfix, .head _⟩
  | cons c front inductionHypothesis =>
    by_cases feed : c = '\n'
    · subst feed
      obtain ⟨line, inside, member⟩ := inductionHypothesis (start + 1)
      have lines : start + newlines ('\n' :: front) = start + 1 + newlines front := by
        simp only [newlines, List.count_cons_self]
        omega
      rw [lines, List.cons_append, splitOn, beq_self_eq_true, if_pos rfl]
      exact ⟨line, inside, .tail _ member⟩
    · obtain ⟨line, inside, member⟩ := inductionHypothesis start
      obtain ⟨piece, pieces, split⟩ :=
        List.exists_cons_of_ne_nil (splitOn_ne_nil '\n' (front ++ (word ++ back)))
      have lines : newlines (c :: front) = newlines front := by
        simp [newlines, List.count_cons_of_ne feed]
      rw [split, numbered, List.mem_cons] at member
      rw [lines, List.cons_append, splitOn_cons_of_ne feed split, numbered]
      rcases member with same | later
      · obtain ⟨number, rfl⟩ := Prod.mk.inj same
        refine ⟨c :: line, List.infix_cons inside, ?_⟩
        rw [number]
        exact .head _
      · exact ⟨line, inside, .tail _ later⟩

/-- A word without line feeds stands on one line, which the line feeds in front of it number. -/
theorem holdsOn_append {word : List Char} (free : '\n' ∉ word) (front back : List Char) :
    HoldsOn (front ++ (word ++ back)) word (1 + newlines front) :=
  exists_numbered_append free 1 front back

end Text

namespace Idl

open Grammar
open Grammar.Expression (skipThen thenSkip)
open Text (newlines HoldsOn)

/-! ### Names in the sources of phrases -/

/-- A name is written out on one line. -/
def Quoted (name : String) (text : List Char) : Prop :=
  name ≠ "" ∧ '\n' ∉ name.toList ∧ name.toList <:+: text

theorem Quoted.append_right {name : String} {text : List Char} (quoted : Quoted name text)
    (back : List Char) : Quoted name (text ++ back) :=
  ⟨quoted.1, quoted.2.1, quoted.2.2.trans (List.prefix_append text back).isInfix⟩

/-- A name that a text quotes is quoted with more in front of it. -/
theorem Quoted.append_left {name : String} {text : List Char} (quoted : Quoted name text)
    (front : List Char) : Quoted name (front ++ text) :=
  ⟨quoted.1, quoted.2.1, quoted.2.2.trans (List.suffix_append front text).isInfix⟩

/-- The names of a value are quoted from the text that it is read from. -/
def Quotes {Value : Type} (names : Value → List String) (phrase : Phrase Value) : Prop :=
  ∀ ⦃value text⦄, phrase.Derives typeMeaning value text → ∀ name ∈ names value, Quoted name text

namespace Quotes

variable {First Second Value : Type} {names : Value → List String}
  {firstNames : First → List String} {secondNames : Second → List String}

/-- A phrase quotes the names of what is built from its value. -/
theorem map {inner : Phrase First} (build : First → Value)
    (same : ∀ value, names (build value) = firstNames value) (quotes : Quotes firstNames inner) :
    Quotes names (.map build inner) := by
  rintro _ text ⟨value, rfl, derives⟩ name member
  exact quotes derives name (same value ▸ member)

/-- The names of both parts stand in the text of a sequence. -/
theorem seq {first : Phrase First} {second : Phrase Second} (firstQuotes : Quotes firstNames first)
    (secondQuotes : Quotes secondNames second) :
    Quotes (fun pair => firstNames pair.1 ++ secondNames pair.2) (.seq first second) := by
  rintro value _ ⟨front, back, rfl, firstDerives, secondDerives⟩ name member
  rcases List.mem_append.mp member with inFirst | inSecond
  · exact (firstQuotes firstDerives name inFirst).append_right back
  · exact (secondQuotes secondDerives name inSecond).append_left front

/-- A choice quotes the names of the alternative that is read. -/
theorem choice {first second : Phrase Value} (firstQuotes : Quotes names first)
    (secondQuotes : Quotes names second) : Quotes names (.choice first second) := by
  rintro value text (firstDerives | secondDerives)
  · exact firstQuotes firstDerives
  · exact secondQuotes secondDerives

theorem nothing (phrase : Phrase Value) : Quotes (fun _ => []) phrase :=
  fun _ _ _ _ member => absurd member List.not_mem_nil

theorem skipThen (first : Phrase First) {second : Phrase Value} (quotes : Quotes names second) :
    Quotes names (skipThen first second) :=
  ((nothing first).seq quotes).map _ fun _ => rfl

theorem thenSkip {first : Phrase Value} (quotes : Quotes names first) (second : Phrase Second) :
    Quotes names (thenSkip first second) :=
  (quotes.seq (nothing second)).map _ fun _ => (List.append_nil _).symm

theorem spaced {phrase : Phrase Value} (quotes : Quotes names phrase) :
    Quotes names (spaced phrase) :=
  quotes.thenSkip blank

/-- A name is quoted by itself, since it has no line feed. -/
theorem name : Quotes (fun name => [name]) Idl.name := by
  rintro _ text ⟨_, rfl, rfl, nonempty, parts⟩ name member
  obtain rfl := List.mem_singleton.mp member
  rw [Quoted, String.toList_ofList]
  refine ⟨fun empty => nonempty ?_, fun feed => ?_, List.infix_rfl⟩
  · simpa using congrArg String.toList empty
  · exact absurd (List.all_eq_true.mp parts '\n' feed) (by decide)

/-- A name stands in front of the content of a definition. -/
theorem named (content : Phrase Value) :
    Quotes (fun pair => [pair.1]) (.seq (Idl.spaced Idl.name) content) :=
  fun _ _ derives name member => (Quotes.name.spaced.seq (nothing content)) derives name
    (List.mem_append_left _ member)

end Quotes

/-! ### Sources of definitions -/

/-- The names by which a definition is known. -/
def Definition.names : Definition → List String
  | .interface definition => [definition.name]
  | .dictionary definition => [definition.name]
  | .enumeration definition => [definition.name]
  | .callback definition => [definition.name]
  | .typedef definition => [definition.name]
  | .inclusion definition => [definition.target, definition.mixin]

@[simp]
theorem Definition.names_withExtAttrs (extAttrs : List String) (definition : Definition) :
    (definition.withExtAttrs extAttrs).names = definition.names := by
  cases definition <;> rfl

@[simp]
theorem Definition.names_asPartial (definition : Definition) :
    definition.asPartial.names = definition.names := by
  cases definition <;> rfl

@[simp]
theorem Definition.names_withSpan (span : Option Span) (definition : Definition) :
    (definition.withSpan span).names = definition.names := by
  cases definition <;> rfl

@[simp]
theorem Definition.span_withSpan (span : Option Span) (definition : Definition) :
    (definition.withSpan span).span = span := by
  cases definition <;> rfl

/-- A source holds the names of its definition and ends with a semicolon. -/
structure IsSource (definition : Definition) (source : List Char) : Prop where
  quoted : ∀ name ∈ definition.names, Quoted name source
  ends : ∃ front, source = front ++ [';']

/-- A phrase that quotes its names and ends in a semicolon is the source of a definition. -/
theorem isSource_of_derives {phrase : Phrase Definition} (quotes : Quotes Definition.names phrase)
    (ends : phrase.EndsWith (.symbol ';')) {definition : Definition} {text : List Char}
    (derives : phrase.Derives typeMeaning definition text) : IsSource definition text where
  quoted := quotes derives
  ends := by
    obtain ⟨front, _, rfl, rfl⟩ := ends.derives derives
    exact ⟨front, rfl⟩

theorem quotes_callbackInterface : Quotes Definition.names callbackInterface :=
  ((Quotes.named _).skipThen _).map _ fun _ => rfl

/-- The name of a callback function stands between its keyword and its equals sign. -/
theorem quotes_callbackFunction : Quotes Definition.names callbackFunction :=
  (((Quotes.name.spaced.thenSkip _).seq (.nothing _)).skipThen _).map _ fun _ => rfl

/-- The name of a mixin stands behind both its keywords. -/
theorem quotes_mixin : Quotes Definition.names mixin :=
  ((Quotes.named _).skipThen _).map _ fun _ => rfl

theorem quotes_interface : Quotes Definition.names interface :=
  ((Quotes.named _).skipThen _).map _ fun _ => rfl

theorem quotes_namespaceDefinition : Quotes Definition.names namespaceDefinition :=
  ((Quotes.named _).skipThen _).map _ fun _ => rfl

/-- The fields of a dictionary are not among its own names. -/
theorem quotes_dictionary : Quotes Definition.names dictionary :=
  ((Quotes.named _).skipThen _).map _ fun _ => rfl

/-- The values of an enumeration are not among its own names. -/
theorem quotes_enumeration : Quotes Definition.names enumeration :=
  ((Quotes.named _).skipThen _).map _ fun _ => rfl

/-- The name of a type definition stands behind its type. -/
theorem quotes_typedef : Quotes Definition.names typedef :=
  (((Quotes.nothing _).seq (Quotes.name.spaced.thenSkip _)).skipThen _).map _ fun _ => rfl

theorem quotes_inclusion : Quotes Definition.names inclusion :=
  ((Quotes.name.spaced.thenSkip _).seq (Quotes.name.spaced.thenSkip _)).map _ fun _ => rfl

/-- Behind the line feeds that lead to it, a found definition has a source that it extends over. -/
def Found.Covers (found : Found) (text : List Char) : Prop :=
  ∃ front source, text = front ++ source ∧ found.lead = newlines front ∧
    found.extent = newlines source ∧ IsSource found.definition source

/-- A definition without anything in front covers the text of its phrase. -/
theorem covers_of_located {phrase : Phrase Definition} (quotes : Quotes Definition.names phrase)
    (ends : phrase.EndsWith (.symbol ';')) {found : Found} {text : List Char}
    (derives : (located phrase).Derives typeMeaning found text) : found.Covers text := by
  obtain ⟨⟨source, definition⟩, rfl, rfl, sourceDerives⟩ := derives
  exact ⟨[], source, rfl, rfl, rfl, isSource_of_derives quotes ends sourceDerives⟩

/-- What stands in front of a definition leads to it. -/
theorem Found.Covers.behind {found : Found} {text : List Char} (covers : found.Covers text)
    (front : List Char) {definition : Definition}
    (names : definition.names = found.definition.names) :
    Found.Covers ⟨newlines front + found.lead, found.extent, definition⟩ (front ++ text) := by
  obtain ⟨lead, source, rfl, leads, extent, quoted, ends⟩ := covers
  refine ⟨front ++ lead, source, (List.append_assoc ..).symm, ?_, extent, ?_, ends⟩
  · rw [newlines_append, leads]
  · exact names ▸ quoted

/-- The word for a part stands in front of what the definition covers. -/
theorem covers_of_partialDefinition {found : Found} {text : List Char}
    (derives : partialDefinition.Derives typeMeaning found text) : found.Covers text := by
  have quotes : Quotes Definition.names partDefinition :=
    quotes_mixin.choice (quotes_interface.choice (quotes_dictionary.choice
      quotes_namespaceDefinition))
  obtain ⟨⟨⟨front, _⟩, inner⟩, rfl, _, back, rfl, ⟨rfl, -⟩, innerDerives⟩ := derives
  exact (covers_of_located quotes ⟨rfl, rfl, rfl, rfl⟩ innerDerives).behind front
    inner.definition.names_asPartial

/-- The attributes stand in front of what the definition covers. -/
theorem covers_of_definition {found : Found} {text : List Char}
    (derives : definition.Derives typeMeaning found text) : found.Covers text := by
  have interfaces : Quotes Definition.names interfaceDefinition :=
    quotes_callbackInterface.choice (quotes_callbackFunction.choice
      (quotes_mixin.choice quotes_interface))
  have plain : Quotes Definition.names plainDefinition :=
    quotes_namespaceDefinition.choice (quotes_dictionary.choice
      (quotes_enumeration.choice (quotes_typedef.choice quotes_inclusion)))
  obtain ⟨⟨⟨front, extAttrs⟩, inner⟩, rfl, _, back, rfl, ⟨rfl, -⟩, innerDerives⟩ := derives
  refine Found.Covers.behind ?_ front (inner.definition.names_withExtAttrs (extAttrs.getD []))
  rcases innerDerives with interface | part | other
  · exact covers_of_located interfaces ⟨rfl, rfl, rfl, rfl⟩ interface
  · exact covers_of_partialDefinition part
  · exact covers_of_located plain ⟨rfl, rfl, rfl, rfl, rfl⟩ other

/-! ### Lines of a document -/

/-- A definition has a span, whose lines hold its names and whose last line has a semicolon. -/
structure Definition.StandsOn (text : List Char) (definition : Definition) (span : Span) :
    Prop where
  placed : definition.span = some span
  named : ∀ name ∈ definition.names, name ≠ "" ∧
    ∃ number, span.line ≤ number ∧ number ≤ span.endLine ∧ HoldsOn text name.toList number
  ends : HoldsOn text [';'] span.endLine

/-- The lines of a source behind a part of a text. -/
def Span.behind (front source : List Char) : Span :=
  ⟨1 + newlines front, 1 + newlines front + newlines source⟩

/-- The line feeds in front of a source and in it give the lines of its span. -/
theorem standsOn_of_isSource {definition : Definition} {source : List Char}
    (isSource : IsSource definition source) (front back : List Char) :
    Definition.StandsOn (front ++ (source ++ back))
      (definition.withSpan (some (.behind front source))) (.behind front source) where
  placed := definition.span_withSpan _
  named := by
    intro name member
    obtain ⟨nonempty, free, before, behind, rfl⟩ :=
      isSource.quoted name (definition.names_withSpan _ ▸ member)
    have holds := Text.holdsOn_append free (front ++ before) (behind ++ back)
    simp only [Span.behind, newlines_append, List.append_assoc] at holds ⊢
    exact ⟨nonempty, _, by omega, by omega, holds⟩
  ends := by
    obtain ⟨before, rfl⟩ := isSource.ends
    have free : '\n' ∉ [';'] := by decide
    have holds := Text.holdsOn_append free (front ++ before) back
    have last : newlines [';'] = 0 := rfl
    simpa only [Span.behind, newlines_append, List.append_assoc, last, Nat.add_zero,
      Nat.add_assoc] using holds

/-- The lines on which spans begin and end stand in order between a first and a last line. -/
def Ascends (first : Nat) (spans : List Span) (last : Nat) : Prop :=
  List.IsChain (· ≤ ·) (first :: spans.flatMap (fun span => [span.line, span.endLine]) ++ [last])

theorem ascends_nil {first last : Nat} : Ascends first [] last ↔ first ≤ last := by
  simp [Ascends]

/-- Spans ascend when the first one does and the others start where it ends. -/
theorem ascends_cons {first last : Nat} {span : Span} {spans : List Span} :
    Ascends first (span :: spans) last ↔
      first ≤ span.line ∧ span.line ≤ span.endLine ∧ Ascends span.endLine spans last := by
  simp [Ascends]

/-- Blank and whatever leads to a definition stand in front of its source. -/
theorem exists_source_of_read {text rest : List Char} {found : Found}
    (read : grammar.read definition (afterBlank text) = some (found, rest)) :
    ∃ front source, text = front ++ (source ++ rest) ∧ IsSource found.definition source ∧
      newlines (consumed text (afterBlank text)) + found.lead = newlines front ∧
      found.extent = newlines source := by
  obtain ⟨blank, split⟩ := afterBlank_suffix text
  obtain ⟨_, start, derives⟩ := read_takes typeMeaning scan_means body_means definition read
  obtain ⟨lead, source, rfl, leads, extent, isSource⟩ := covers_of_definition derives
  have blankLines := newlines_consumed (afterBlank_suffix text)
  have allLines := congrArg newlines split
  rw [newlines_append] at allLines
  refine ⟨blank ++ lead, source, ?_, isSource, ?_, extent⟩
  · rw [← split, start]
    simp only [List.append_assoc]
  · rw [newlines_append, ← leads]
    omega

/-- The definitions behind a part of a text stand on the lines behind it. -/
theorem definitionsFrom_standsOn (front text : List Char) :
    ∃ spans, List.Forall₂ (Definition.StandsOn (front ++ text))
        (definitionsFrom (1 + newlines front) text).1 spans ∧
      Ascends (1 + newlines front) spans (newlines (front ++ text) + 1) := by
  induction text using definitions_induction generalizing front with
  | step text found rest read inductionHypothesis =>
    obtain ⟨lead, source, split, isSource, leads, extent⟩ := exists_source_of_read read
    let span : Span := .behind (front ++ lead) source
    have whole : front ++ lead ++ (source ++ rest) = front ++ text := by
      rw [split, List.append_assoc]
    have placed : found.on (1 + newlines front + newlines (consumed text (afterBlank text))) =
        found.definition.withSpan (some span) := by
      rw [Found.on, Nat.add_assoc _ _ found.lead, leads, Nat.add_assoc, ← newlines_append, extent]
      rfl
    have next : 1 + newlines front + newlines (consumed text rest) = span.endLine := by
      rw [split, ← List.append_assoc, consumed_of_append]
      simp only [span, Span.behind, newlines_append, Nat.add_assoc]
    have behind : 1 + newlines (front ++ lead ++ source) = span.endLine := by
      rw [newlines_append, ← Nat.add_assoc]
      rfl
    have stands := standsOn_of_isSource isSource (front ++ lead) rest
    obtain ⟨spans, others, ascends⟩ := inductionHypothesis (front ++ lead ++ source)
    rw [whole] at stands
    rw [List.append_assoc (front ++ lead), whole, behind] at others ascends
    rw [definitionsFrom_of_some read, placed, next]
    have later : 1 + newlines front ≤ span.line := by
      simp only [span, Span.behind, newlines_append]
      omega
    exact ⟨span :: spans, .cons stands others,
      ascends_cons.mpr ⟨later, Nat.le_add_right _ _, ascends⟩⟩
  | stop text missing =>
    rw [definitionsFrom_of_none missing]
    refine ⟨[], .nil, ascends_nil.mpr ?_⟩
    rw [newlines_append]
    omega

/-- The spans of an accepted document ascend from the first line of the text to its last one, and
each definition stands on the lines of its span. -/
theorem definitions_standOn {text : List Char} {document : Document}
    (accepted : Document.parse text = .ok document) :
    ∃ spans, List.Forall₂ (Definition.StandsOn text) document.definitions spans ∧
      Ascends 1 spans (newlines text + 1) := by
  rw [parse_eq_definitionsFrom] at accepted
  split at accepted <;> try contradiction
  obtain rfl := Except.ok.inj accepted
  exact definitionsFrom_standsOn [] text

/-- Two definitions begin on a line on which another one ends. -/
def crowdedText : List Char :=
  "[A]\npartial\ninterface A \x7b\n\x7d; typedef long\nB; A includes\n  M;".toList

def crowdedDocument : Document where
  definitions :=
    [.interface { name := "A", isPartial := true, extAttrs := ["A"], span := some ⟨3, 4⟩ },
      .typedef { name := "B", type := "long", span := some ⟨4, 5⟩ },
      .inclusion { target := "A", mixin := "M", span := some ⟨5, 6⟩ }]

/-- Three definitions share their lines, and each is found on its own. -/
theorem definitions_standOn_crowded :
    Document.parse crowdedText = .ok crowdedDocument ∧
      List.Forall₂ (Definition.StandsOn crowdedText) crowdedDocument.definitions
        [⟨3, 4⟩, ⟨4, 5⟩, ⟨5, 6⟩] ∧
      Ascends 1 [⟨3, 4⟩, ⟨4, 5⟩, ⟨5, 6⟩] 6 := by
  have accepted : Document.parse crowdedText = .ok crowdedDocument := by decide +kernel
  obtain ⟨spans, stand, ascends⟩ := definitions_standOn accepted
  rcases stand with _ | ⟨interface, _ | ⟨typedef, _ | ⟨inclusion, _ | _⟩⟩⟩
  obtain rfl := Option.some.inj interface.placed
  obtain rfl := Option.some.inj typedef.placed
  obtain rfl := Option.some.inj inclusion.placed
  exact ⟨accepted, .cons interface (.cons typedef (.cons inclusion .nil)), ascends⟩

end Idl

end InterfaceAudit
