import InterfaceAudit.Proofs.Grammar.Agreement
import InterfaceAudit.Proofs.Idl.Compact

/-!
Readings of compact texts.
Wherever a phrase is read from a text without comments, it is read from the compact text as well,
with the same tokens in the same order.
-/

namespace InterfaceAudit.Idl

open Grammar
open Grammar.Expression (skipThen)
open Text (isWhiteSpace)

/-! ### Scans of words -/

/-- Both scans fail, or both take related texts and leave a rest and its compact text. -/
def Compacted (Related : List Char → List Char → Prop) (scan other : Scan) : Prop :=
  (scan = none ∧ other = none) ∨
    ∃ taken otherTaken rest, scan = some (taken, rest) ∧
      other = some (otherTaken, compact true rest) ∧ Related taken otherTaken

section Inert

variable {scan : List Char → Scan} (inert : Inert isTokenPart scan)

include inert

/-- No token of words is found in an empty text. -/
theorem Inert.scan_nil : scan [] = none := by
  cases found : scan [] with
  | none => rfl
  | some reading =>
    have split := inert.splits found
    exact absurd (List.append_eq_nil_iff.mp split.append).1 split.taken_ne_nil

/-- Where no token character stands nothing is scanned. -/
theorem Inert.none_of_stops {text : List Char}
    (stops : ∀ c ∈ text.head?, isTokenPart c = false) : scan text = none := by
  cases text with
  | nil => exact inert.scan_nil
  | cons c rest => exact inert.none_of_outside (stops c rfl) rest

/-- A token of words ends where something else follows. -/
theorem Inert.append_of_stops (front : List Char) {after : List Char}
    (stops : ∀ c ∈ after.head?, isTokenPart c = false) :
    scan (front ++ after) = extended after (scan front) := by
  cases after with
  | nil =>
    rw [List.append_nil]
    cases scan front with
    | none => rfl
    | some reading => simp only [extended, Option.map_some, List.append_nil]
  | cons c rest => exact inert.steady front rest (stops c rfl)

/-- A scan of token characters takes the same text from the compact text. -/
theorem Inert.compacted {text : List Char} (settled : Settled text) (behindWord : Bool) :
    Compacted Eq (scan text) (scan (compact behindWord text)) := by
  obtain ⟨front, after, rfl, parts, stops⟩ := exists_run isTokenPart text
  by_cases empty : front = []
  · subst empty
    rw [List.nil_append] at settled ⊢
    refine .inl ⟨inert.none_of_stops stops, inert.none_of_stops ?_⟩
    cases after with
    | nil => exact nofun
    | cons c rest =>
      rw [compact_solid behindWord (settled c rfl)]
      exact stops
  · rw [compact_word behindWord empty parts, inert.append_of_stops front stops,
      inert.append_of_stops front (head_compact stops)]
    cases found : scan front with
    | none => exact .inl ⟨rfl, rfl⟩
    | some reading =>
      obtain ⟨taken, last⟩ := reading
      have lastParts : last.all isTokenPart = true := by
        rw [← (inert.splits found).append, List.all_append, Bool.and_eq_true] at parts
        exact parts.2
      refine .inr ⟨taken, taken, last ++ after, rfl, ?_, rfl⟩
      rw [extended_some, compact_run lastParts]

end Inert

/-! ### Primitive types -/

/-- Two texts with the same words. -/
def SameWords (text other : List Char) : Prop := ∃ words, Words words text ∧ Words words other

/-- Words are scanned alike in a settled text and in its compact text, and only where one begins. -/
structure CompactsWords (scan : List Char → Scan) : Prop where
  compacted : ∀ {text : List Char}, Settled text → ∀ behindWord,
    Compacted SameWords (scan text) (scan (compact behindWord text))
  stops : ∀ {text : List Char}, (∀ c ∈ text.head?, isTokenPart c = false) → scan text = none

/-- One word is found in a compact text as it is found in the text. -/
theorem compactsWords_word {spelling : List Char} (nonempty : spelling ≠ [])
    (parts : spelling.all isTokenPart = true) : CompactsWords (scanKeyword spelling) where
  compacted {text} settled behindWord := by
    have inert : Inert isTokenPart (scanKeyword spelling) :=
      scanWord_inert (fun _ => id) nonempty parts
    rcases inert.compacted settled behindWord with missing | ⟨taken, _, rest, found, other, rfl⟩
    · exact .inl missing
    · have split := inert.splits found
      have isWord := Words.one split.taken_ne_nil (List.all_eq_true.mpr split.inert)
      exact .inr ⟨taken, taken, rest, found, other, [taken], isWord, isWord⟩
  stops := (scanWord_inert (fun _ => id) nonempty parts).none_of_stops

/-- Two scans of words that are tried one after the other are compacted together. -/
theorem compactsWords_or {first second : List Char → Scan} (firstCompacts : CompactsWords first)
    (secondCompacts : CompactsWords second) :
    CompactsWords fun text => (first text).or (second text) where
  compacted {text} settled behindWord := by
    rcases firstCompacts.compacted settled behindWord with
      ⟨missing, otherMissing⟩ | ⟨taken, otherTaken, rest, found, otherFound, same⟩
    · simp only [missing, otherMissing, Option.none_or]
      exact secondCompacts.compacted settled behindWord
    · simp only [found, otherFound, Option.some_or]
      exact .inr ⟨taken, otherTaken, rest, rfl, rfl, same⟩
  stops outside := by
    simp only [firstCompacts.stops outside, secondCompacts.stops outside, Option.none_or]

/-- A settled text starts without white space. -/
theorem scanSpaces_settled {text : List Char} (settled : Settled text) :
    scanSpaces text = none := by
  cases text with
  | nil => rfl
  | cons c rest =>
    unfold scanSpaces scanWhile
    rw [List.takeWhile_cons_of_neg (by simpa using settled c rfl)]

/-- White space ends where the text is settled. -/
theorem scanSpaces_of_append {gap rest : List Char} (white : gap.all isWhiteSpace = true)
    (nonempty : gap ≠ []) (settled : Settled rest) :
    scanSpaces (gap ++ rest) = some (gap, rest) := by
  have dropped := dropWhile_run white settled
  have taken : (gap ++ rest).takeWhile isWhiteSpace = gap := by
    have split := List.takeWhile_append_dropWhile (p := isWhiteSpace) (l := gap ++ rest)
    rw [dropped] at split
    exact List.append_cancel_right split
  obtain ⟨c, others, rfl⟩ := List.exists_cons_of_ne_nil nonempty
  unfold scanSpaces scanWhile
  rw [taken, dropped]

/-- White space is found in the compact text if it is found in the text and a word follows it. -/
theorem scanSpaces_compact (text : List Char) :
    (scanSpaces text = none ∧ scanSpaces (compact true text) = none) ∨
      ∃ gap rest, gap.all isWhiteSpace = true ∧ gap ≠ [] ∧ Settled rest ∧
        scanSpaces text = some (gap, rest) ∧
        scanSpaces (compact true text) =
          if rest.head?.any isWordy then some ([' '], compact false rest) else none := by
  obtain ⟨gap, rest, rfl, white, settled⟩ := exists_run isWhiteSpace text
  by_cases empty : gap = []
  · rw [empty, List.nil_append]
    exact .inl ⟨scanSpaces_settled settled, scanSpaces_settled (settled_compact settled true)⟩
  · refine .inr ⟨gap, rest, white, empty, settled, scanSpaces_of_append white empty settled, ?_⟩
    have restSettled := settled_compact settled false
    rw [compact_append_of_isWhiteSpace white empty settled, Bool.true_and]
    split
    · exact scanSpaces_of_append rfl (List.cons_ne_nil ' ' []) restSettled
    · exact scanSpaces_settled restSettled

/-- A modifier with white space and words behind it. -/
theorem compactsWords_spaced {spelling : List Char} {words : List Char → Scan}
    (nonempty : spelling ≠ []) (parts : spelling.all isTokenPart = true)
    (compacts : CompactsWords words) :
    CompactsWords fun text => ((scanSpelling spelling text).andThen scanSpaces).andThen words where
  compacted {text} settled behindWord := by
    have inert : Inert isTokenPart (scanSpelling spelling) :=
      scanPart_inert (fun _ => id) nonempty parts
    rcases inert.compacted settled behindWord with
      ⟨missing, otherMissing⟩ | ⟨word, _, rest, found, otherFound, rfl⟩
    · simp only [missing, otherMissing, none_andThen]
      exact .inl ⟨rfl, rfl⟩
    · have wordSplit := inert.splits found
      simp only [found, otherFound, some_andThen]
      rcases scanSpaces_compact rest with ⟨missing, otherMissing⟩ |
        ⟨gap, behind, white, gapNonempty, settledBehind, spaced, otherSpaced⟩
      · rw [missing, otherMissing]
        exact .inl ⟨rfl, rfl⟩
      · rw [spaced]
        -- the compact text keeps a space only in front of a word, where words may be scanned
        by_cases wordy : behind.head?.any isWordy = true
        · rw [otherSpaced, if_pos wordy]
          simp only [Option.map_some, some_andThen]
          rcases compacts.compacted settledBehind false with
            ⟨missing, otherMissing⟩ | ⟨taken, otherTaken, last, found, otherFound, words, isWords,
              otherWords⟩
          · rw [missing, otherMissing]
            exact .inl ⟨rfl, rfl⟩
          · rw [found, otherFound]
            refine .inr ⟨_, _, last, rfl, rfl, word :: words, ?_, ?_⟩
            · rw [List.append_assoc]
              exact .cons wordSplit.taken_ne_nil (List.all_eq_true.mpr wordSplit.inert) gapNonempty
                white isWords
            · rw [List.append_assoc]
              exact .cons wordSplit.taken_ne_nil (List.all_eq_true.mpr wordSplit.inert)
                (List.cons_ne_nil ' ' []) rfl otherWords
        · rw [otherSpaced, if_neg wordy]
          have missing := compacts.stops (stops_of_not_wordy wordy)
          simp only [Option.map_some, some_andThen, missing, Option.map_none, none_andThen]
          exact .inl ⟨rfl, rfl⟩
  stops {text} outside := by
    have inert : Inert isTokenPart (scanSpelling spelling) :=
      scanPart_inert (fun _ => id) nonempty parts
    simp only [inert.none_of_stops outside, none_andThen]

/-- The words of a primitive type are the same in a compact text. -/
theorem compactsWords_primitive : CompactsWords scanPrimitive := by
  have word {spelling : List Char} (nonempty : spelling ≠ [])
      (parts : spelling.all isTokenPart = true) : CompactsWords (scanKeyword spelling) :=
    compactsWords_word nonempty parts
  have integer : CompactsWords scanInteger := by
    have long : CompactsWords (scanKeyword Word.long.chars) := word (by decide) (by decide)
    have twice (text : List Char) := wholeWord_andThen
      ((scanSpelling Word.long.chars text).andThen scanSpaces) (scanSpelling Word.long.chars)
    rw [funext scanInteger_eq]
    simp only [twice]
    exact compactsWords_or (compactsWords_spaced (by decide) (by decide) long)
      (compactsWords_or long (word (by decide) (by decide)))
  have real : CompactsWords scanReal := by
    rw [funext scanReal_eq]
    exact compactsWords_or (word (by decide) (by decide)) (word (by decide) (by decide))
  have modified {modifier : List Char} {words : List Char → Scan} (nonempty : modifier ≠ [])
      (parts : modifier.all isTokenPart = true) (compacts : CompactsWords words) :
      CompactsWords (scanModified modifier words) := by
    rw [funext (scanModified_eq modifier words)]
    exact compactsWords_or (compactsWords_spaced nonempty parts compacts) compacts
  rw [funext scanPrimitive_eq]
  exact compactsWords_or (modified (by decide) (by decide) integer)
    (modified (by decide) (by decide) real)

/-! ### Quoted texts -/

/-- A text holds a quotation mark if its compact text does. -/
theorem dropWhile_quote_compact (behindWord : Bool) (text : List Char) :
    (text.dropWhile (· != '\x22') = [] ∧
        (compact behindWord text).dropWhile (· != '\x22') = []) ∨
      ∃ after, text.dropWhile (· != '\x22') = '\x22' :: after ∧
        (compact behindWord text).dropWhile (· != '\x22') = '\x22' :: compact true after := by
  induction text generalizing behindWord with
  | nil => exact .inl ⟨rfl, rfl⟩
  | cons c rest inductionHypothesis =>
    by_cases isQuote : c = '\x22'
    · subst isQuote
      exact .inr ⟨rest, rfl, rfl⟩
    · have dropped (rest : List Char) :
          (c :: rest).dropWhile (· != '\x22') = rest.dropWhile (· != '\x22') :=
        List.dropWhile_cons_of_pos (bne_iff_ne.mpr isQuote)
      rw [dropped, compact]
      split
      · split
        · exact inductionHypothesis false
        · exact inductionHypothesis behindWord
      · rw [dropped]
        exact inductionHypothesis (isWordy c)

/-- A quoted text is read from the compact text if it is read from the text. -/
theorem scanQuoted_compact {text : List Char} (settled : Settled text) (behindWord : Bool) :
    Compacted (fun _ _ => True) (scanQuoted text) (scanQuoted (compact behindWord text)) := by
  cases text with
  | nil => exact .inl ⟨rfl, rfl⟩
  | cons c rest =>
    rw [compact_solid behindWord (settled c rfl)]
    by_cases isQuote : c = '\x22'
    · subst isQuote
      simp only [scanQuoted, scanWhile, beq_self_eq_true, if_true]
      rcases dropWhile_quote_compact (isWordy '\x22') rest with
        ⟨isOpen, otherOpen⟩ | ⟨after, closed, otherClosed⟩
      · simp only [isOpen, otherOpen]
        exact .inl ⟨rfl, rfl⟩
      · simp only [closed, otherClosed]
        exact .inr ⟨_, _, after, rfl, rfl, trivial⟩
    · have other : ¬(c == '\x22') = true := by simpa using isQuote
      simp only [scanQuoted, other]
      exact .inl ⟨rfl, rfl⟩

/-! ### Lockstep -/

/-- A place of a text without comments faces one of the compact text. -/
def Faces (settled : Bool) (text other : List Char) : Prop :=
  '/' ∉ text ∧ (settled = true → Settled text) ∧ ∃ behindWord, other = compact behindWord text

/-- Tokens of both texts say the same of a type. -/
def SameToken : Token → List Char → List Char → Prop
  | .name, text, other => text = other
  | .primitive, text, other => wordsOf text = wordsOf other
  | _, _, _ => True

def SameRule {Result : Type} : Rule Result → Taken Result → Taken Result → Prop
  | .type, one, another => one.2.form = another.2.form
  | .extAttrs, _, _ => True

/-- Sources of both texts differ in their white space, which the form of a type does not show. -/
def compacting : Bond Token Rule where
  token := SameToken
  rule := SameRule
  source _ _ := True

/-- Nothing is asked of a place that is not settled. -/
theorem unsettled {text : List Char} (isSettled : false = true) : Settled text :=
  absurd isSettled Bool.false_ne_true

/-- Texts that face each other do so whether or not they start solid. -/
theorem Faces.unsettle {text other : List Char} (faces : Faces true text other) :
    Faces false text other :=
  ⟨faces.1, unsettled, faces.2.2⟩

/-- A token that takes the same on both sides leaves texts that face each other. -/
theorem scan_tandem {kind : Token} {settled behindWord : Bool}
    {text taken rest other otherTaken : List Char} (noSlash : '/' ∉ text)
    (found : kind.scan text = some (taken, rest)) (restSettled : settled = true → Settled rest)
    (otherFound : kind.scan other = some (otherTaken, compact behindWord rest))
    (same : SameToken kind taken otherTaken) :
    Tandem (Faces settled) ((Expression.token kind : Phrase (List Char)).Twin compacting)
      text other (kind.scan text) (kind.scan other) := by
  have split := (Token.scan_split found).1
  have restNoSlash : '/' ∉ rest := fun member =>
    noSlash (split ▸ List.mem_append_right taken member)
  rw [found, otherFound]
  exact ⟨taken, otherTaken, split.symm, (Token.scan_split otherFound).1.symm, ⟨same, rfl, rfl⟩,
    restNoSlash, restSettled, behindWord, rfl⟩

/-- A scan that compaction keeps reads both sides in step. -/
theorem scan_tandem_of_compacted {kind : Token} {behindWord : Bool} {text : List Char}
    {Related : List Char → List Char → Prop} (noSlash : '/' ∉ text)
    (compacted : Compacted Related (kind.scan text) (kind.scan (compact behindWord text)))
    (same : ∀ {taken otherTaken}, Related taken otherTaken → SameToken kind taken otherTaken) :
    Tandem (Faces false) ((Expression.token kind : Phrase (List Char)).Twin compacting)
      text (compact behindWord text) (kind.scan text) (kind.scan (compact behindWord text)) := by
  rcases compacted with ⟨missing, otherMissing⟩ |
    ⟨taken, otherTaken, rest, found, otherFound, related⟩
  · rw [missing, otherMissing]
    trivial
  · exact scan_tandem noSlash found unsettled otherFound (same related)

/-- Every token that is no blank reads both sides in step. -/
theorem scan_token_tandem {kind : Token} (outright : kind.isOutright = true)
    {text other : List Char} (faces : Faces true text other) :
    Tandem (Faces false) ((Expression.token kind : Phrase (List Char)).Twin compacting)
      text other (kind.scan text) (kind.scan other) := by
  obtain ⟨noSlash, isSettled, behindWord, rfl⟩ := faces
  have settled := isSettled rfl
  have part (c : Char) (held : isTokenPart c = true) : isTokenPart c = true := held
  cases kind with
  | blank => exact absurd outright Bool.false_ne_true
  | symbol mark =>
    cases text with
    | nil => trivial
    | cons c rest =>
      have scanned (rest : List Char) : (Token.symbol mark).scan (c :: rest) =
          if mark = c then some ([mark], rest) else none := by
        simp [Token.scan, scanSpelling]
      have other := compact_solid behindWord (settled c rfl) rest
      by_cases same : mark = c
      · have otherFound : (Token.symbol mark).scan (compact behindWord (c :: rest)) =
            some ([mark], compact (isWordy c) rest) := by rw [other, scanned, if_pos same]
        exact scan_tandem noSlash ((scanned rest).trans (if_pos same)) unsettled otherFound trivial
      · rw [other, scanned, scanned, if_neg same, if_neg same]
        trivial
  | ellipsis =>
    have inert : Inert isTokenPart (scanSpelling "...".toList) :=
      scanPart_inert part (by decide) (by decide)
    exact scan_tandem_of_compacted noSlash (inert.compacted settled behindWord) fun _ => trivial
  | keyword word =>
    have inert := scanKeyword_inert part word
    exact scan_tandem_of_compacted noSlash (inert.compacted settled behindWord) fun _ => trivial
  | name =>
    have inert := scanName_inert part
    exact scan_tandem_of_compacted noSlash (inert.compacted settled behindWord) id
  | primitive =>
    have compacted := compactsWords_primitive.compacted settled behindWord
    refine scan_tandem_of_compacted noSlash compacted ?_
    rintro taken otherTaken ⟨words, isWords, otherWords⟩
    exact isWords.wordsOf_eq.trans otherWords.wordsOf_eq.symm
  | number =>
    have inert := scanNumber_inert part
    exact scan_tandem_of_compacted noSlash (inert.compacted settled behindWord) fun _ => trivial
  | quoted =>
    exact scan_tandem_of_compacted noSlash (scanQuoted_compact settled behindWord) fun _ => trivial

/-- Without comments a blank is white space. -/
theorem afterBlank_of_noSlash {text : List Char} (noSlash : '/' ∉ text) :
    afterBlank text = text.dropWhile isWhiteSpace := by
  induction text with
  | nil => exact afterBlank_of_none rfl
  | cons c rest inductionHypothesis =>
    rw [List.mem_cons, not_or] at noSlash
    have item := afterBlankItem_of_ne_slash (Ne.symm noSlash.1) rest
    by_cases space : isWhiteSpace c = true
    · rw [if_pos space] at item
      rw [afterBlank_of_some item, List.dropWhile_cons_of_pos space, inductionHypothesis noSlash.2]
    · rw [if_neg space] at item
      rw [afterBlank_of_none item, List.dropWhile_cons_of_neg space]

/-- A blank is skipped on both sides, and leaves settled texts. -/
theorem scan_blank_tandem {text other : List Char} (faces : Faces false text other) :
    Tandem (Faces true) ((Expression.token .blank : Phrase (List Char)).Twin compacting)
      text other (Token.blank.scan text) (Token.blank.scan other) := by
  obtain ⟨noSlash, -, behindWord, rfl⟩ := faces
  have otherNoSlash : '/' ∉ compact behindWord text := fun member =>
    (mem_compact member).elim noSlash (by decide)
  have rest := afterBlank_of_noSlash noSlash
  have otherRest := (afterBlank_of_noSlash otherNoSlash).trans (dropWhile_compact behindWord text)
  obtain ⟨_, otherFound⟩ : ∃ taken, Token.blank.scan (compact behindWord text) =
      some (taken, compact false (afterBlank text)) := by
    rw [rest, ← otherRest]
    exact ⟨_, rfl⟩
  exact scan_tandem noSlash rfl (fun _ => rest ▸ settled_dropWhile text) otherFound trivial

/-! ### Forms of types -/

/-- Readings of a phrase from both texts have related values. -/
abbrev Matches {Value : Type} (phrase : Phrase Value) (Related : Value → Value → Prop) : Prop :=
  phrase.Agrees compacting Related

/-- Types of one form, whatever their strings are. -/
def SameForm (use other : TypeUse) : Prop := use.form = other.form

/-- Types of the same forms have the same list of forms. -/
theorem map_form_eq {uses others : List TypeUse} (same : List.Forall₂ SameForm uses others) :
    uses.map TypeUse.form = others.map TypeUse.form := by
  induction same with
  | nil => rfl
  | cons head tail inductionHypothesis => exact congrArg₂ List.cons head inductionHypothesis

theorem spaced_matches {Value : Type} {phrase : Phrase Value} {Related : Value → Value → Prop}
    (isMatch : Matches phrase Related) : Matches (spaced phrase) Related :=
  isMatch.thenSkip blank

theorem type_matches : Matches type SameForm := fun _ _ same => same

/-- Names are the same in a compact text. -/
theorem name_matches : Matches name Eq := by
  have token : Matches (.token .name) Eq := by
    rintro one another ⟨same, oneValue, otherValue⟩
    exact oneValue.trans (same.trans otherValue.symm)
  exact token.map fun same => congrArg String.ofList same

theorem namedType_matches : Matches namedType Eq :=
  name_matches.map fun same => congrArg TypeForm.named same

/-- A primitive type has the same words in a compact text. -/
theorem primitiveType_matches : Matches primitiveType Eq := by
  have agrees : Matches (.token .primitive) fun one another => wordsOf one = wordsOf another := by
    rintro one another ⟨same, oneValue, otherValue⟩
    rw [oneValue, otherValue]
    exact same
  exact agrees.map fun same => congrArg TypeForm.primitive same

/-- A generic type has the same name and the same arguments in a compact text. -/
theorem genericType_matches : Matches genericType Eq := by
  refine (Expression.Agrees.seq (.thenSkip (spaced_matches name_matches) _)
    (.seq (spaced_matches type_matches)
      (.thenSkip (.many (.skipThen _ (spaced_matches type_matches))) _))).map ?_
  rintro ⟨name, first, others⟩ ⟨_, _, _⟩ ⟨(rfl : name = _), firsts, rest⟩
  exact congrArg (TypeForm.generic name) (map_form_eq (.cons firsts rest))

/-- A union has the same alternatives in a compact text. -/
theorem unionType_matches : Matches unionType Eq := by
  have alternative : Matches (skipThen (spaced (keyword .or)) (spaced type)) SameForm :=
    .skipThen _ (spaced_matches type_matches)
  have content := Expression.Agrees.seq (spaced_matches type_matches)
    (alternative.seq (alternative.many.thenSkip (symbol ')')))
  refine Expression.Agrees.map (.skipThen _
    (content.map ?_ : Matches _ (Both SameForm (List.Forall₂ SameForm)))) ?_
  · rintro ⟨first, second, others⟩ ⟨_, _, _⟩ ⟨firsts, seconds, rest⟩
    exact ⟨firsts, .cons seconds rest⟩
  · rintro ⟨first, others⟩ ⟨_, _⟩ ⟨firsts, rest⟩
    exact congrArg TypeForm.union (map_form_eq (.cons firsts rest))

theorem typeBody_matches : Matches typeBody Eq :=
  .choice unionType_matches
    (.choice genericType_matches (.choice primitiveType_matches namedType_matches))

/-- Whether a type is nullable does not depend on the white space in it. -/
theorem typeRule_matches : Matches typeRule SameForm := by
  refine (Expression.Agrees.seq (.any _)
    (.seq (.source typeBody_matches) (.present (skipThen blank (symbol '?'))))).map ?_
  rintro ⟨_, ⟨_, form⟩, mark⟩ ⟨_, ⟨_, _⟩, otherMark⟩ ⟨-, ⟨-, (rfl : form = _)⟩, (rfl : mark = _)⟩
  cases mark <;> rfl

/-- The bodies of both rules agree in what the rules declare. -/
theorem body_compacting {Value : Type} (rule : Rule Value) {one another : Taken Value}
    (twin : (grammar.body rule).Twin compacting one another) : SameRule rule one another := by
  cases rule with
  | type => exact typeRule_matches twin
  | extAttrs => trivial

/-- The one token that may take nothing is the blank. -/
theorem scan_empty_tandem {kind : Token} (isEmpty : progressive.emptyToken kind = true)
    {text other : List Char} (faces : Faces false text other) :
    Tandem (Faces true) ((Expression.token kind : Phrase (List Char)).Twin compacting)
      text other (kind.scan text) (kind.scan other) := by
  obtain rfl : kind = .blank := beq_iff_eq.mp isEmpty
  exact scan_blank_tandem faces

/-- A rule starts at a solid character and leaves the blank behind it alone. -/
theorem body_settles {Value : Type} (rule : Rule Value) :
    (grammar.body rule).settles progressive.emptyToken Token.isOutright true = some false := by
  cases rule <;> rfl

/-- A text and its compact text are read in lockstep. -/
def compaction : Lockstep grammar where
  progressive := progressive
  allowed := Token.isOutright
  attempted _ := True
  bond := compacting
  Facing := Faces
  unsettle faces := faces.unsettle
  scan_blank isEmpty faces := scan_empty_tandem isEmpty faces
  scan_token outright _ faces := scan_token_tandem outright faces
  taken _ _ _ _ := trivial
  body_settles rule := body_settles rule
  body_bond rule _ _ twin := body_compacting rule twin

/-- A type is read from the compact text wherever it is read from a text without comments. -/
theorem read_type_compact {text : List Char} (noSlash : '/' ∉ text) (settled : Settled text)
    (behindWord : Bool) :
    Tandem (Faces false) (fun one another => SameForm one.2 another.2)
      text (compact behindWord text)
      (grammar.read type text) (grammar.read type (compact behindWord text)) := by
  have settles : type.settles progressive.emptyToken Token.isOutright true = some false := rfl
  exact compaction.read_tandem type settles (fun _ _ => trivial)
    ⟨noSlash, fun _ => settled, behindWord, rfl⟩

end InterfaceAudit.Idl
