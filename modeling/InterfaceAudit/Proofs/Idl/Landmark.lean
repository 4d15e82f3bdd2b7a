import InterfaceAudit.Proofs.Idl.Scan

/-!
Landmarks of a text: the marks that stand outside of comments and quoted texts.
Tokens and blanks do not move the next landmark, so readings from one place that reach a landmark
reach the same one.
-/

namespace InterfaceAudit.Idl

open Grammar (extended extended_none extended_some)

/-- A landmark ends a phrase, opens a body or stands before a value. -/
def isLandmark (c : Char) : Bool := c == ';' || c == '\x7b' || c == '='

/-- An inert character is no landmark and begins neither a comment nor a quoted text. -/
def isInert (c : Char) : Bool := !isLandmark c && c != '\x22' && c != '/'

/-- A class without the five other characters is inert. -/
theorem isInert_of_holds {holds : Char → Bool}
    (excluded : [';', '\x7b', '=', '\x22', '/'].all (fun c => !holds c) = true) (c : Char)
    (held : holds c = true) : isInert c = true := by
  simp only [List.all_cons, List.all_nil, Bool.and_true, Bool.and_eq_true,
    Bool.not_eq_true'] at excluded
  obtain ⟨semicolon, brace, equals, quote, slash⟩ := excluded
  have different {other : Char} (otherFails : holds other = false) : (c == other) = false := by
    rw [beq_eq_false_iff_ne]
    rintro rfl
    rw [held] at otherFails
    contradiction
  simp only [isInert, isLandmark, bne, different semicolon, different brace, different equals,
    different quote, different slash, Bool.or_false, Bool.not_false, Bool.and_self]

/-- No part of a word or of a number is a landmark or opens anything. -/
theorem isInert_of_isTokenPart : ∀ c, isTokenPart c = true → isInert c = true :=
  isInert_of_holds (by decide)

theorem isInert_of_isWhiteSpace : ∀ c, Text.isWhiteSpace c = true → isInert c = true :=
  isInert_of_holds (by decide)

/-- What is left after the comment or quoted text that a character begins, or after it alone. -/
def afterElement (c : Char) (rest : List Char) : Option (List Char) :=
  if c == '\x22' then
    match rest.dropWhile (· != '\x22') with
    | _ :: after => some after
    | [] => none
  else if c == '/' then
    match rest with
    | '/' :: comment => some (comment.dropWhile (· != '\n'))
    | '*' :: comment => afterBlockComment comment
    | _ => some rest
  else some rest

/-- A quoted text is one element, and its closing quote is the last of it. -/
theorem afterElement_quote {text rest : List Char} {closing : Char}
    (dropped : text.dropWhile (· != '\x22') = closing :: rest) :
    afterElement '\x22' text = some rest := by
  simp only [afterElement, beq_self_eq_true, if_true, dropped]

/-- A character that begins neither a quoted text nor a comment. -/
def StandsAlone (c : Char) (text : List Char) : Prop :=
  c ≠ '\x22' ∧ (c = '/' → text.head? ≠ some '/' ∧ text.head? ≠ some '*')

/-- A character that opens nothing is an element by itself. -/
theorem afterElement_of_standsAlone {c : Char} {text : List Char} (alone : StandsAlone c text) :
    afterElement c text = some text := by
  obtain ⟨notQuote, noComment⟩ := alone
  simp only [afterElement, beq_iff_eq, notQuote, if_false]
  split
  · next isSlash =>
    obtain ⟨notLine, notBlock⟩ := noComment isSlash
    split
    · exact absurd rfl notLine
    · exact absurd rfl notBlock
    · rfl
  · rfl

/-- An element is a quoted text, a line comment, a block comment or a character by itself. -/
theorem afterElement_cases {c : Char} {text rest : List Char}
    (found : afterElement c text = some rest) :
    (c = '\x22' ∧ ∃ closing, text.dropWhile (· != '\x22') = closing :: rest) ∨
      (c = '/' ∧ ∃ comment, text = '/' :: comment ∧ comment.dropWhile (· != '\n') = rest) ∨
      (c = '/' ∧ ∃ comment, text = '*' :: comment ∧ afterBlockComment comment = some rest) ∨
      StandsAlone c text ∧ text = rest := by
  simp only [afterElement, beq_iff_eq] at found
  split at found
  · next isQuote =>
    split at found <;> try contradiction
    next closing after dropped =>
      obtain rfl := Option.some.inj found
      exact .inl ⟨isQuote, closing, dropped⟩
  · next notQuote =>
    split at found
    · next isSlash =>
      split at found
      · next comment => exact .inr (.inl ⟨isSlash, comment, rfl, Option.some.inj found⟩)
      · next comment => exact .inr (.inr (.inl ⟨isSlash, comment, rfl, found⟩))
      · next notLine notBlock =>
        refine .inr (.inr (.inr ⟨⟨notQuote, fun _ => ⟨fun head => ?_, fun head => ?_⟩⟩,
          Option.some.inj found⟩))
        · obtain ⟨comment, same⟩ := List.head?_eq_some_iff.mp head
          exact notLine comment same
        · obtain ⟨comment, same⟩ := List.head?_eq_some_iff.mp head
          exact notBlock comment same
    · next notSlash =>
      exact .inr (.inr (.inr ⟨⟨notQuote, fun isSlash => absurd isSlash notSlash⟩,
        Option.some.inj found⟩))

/-- What follows an element is an end of the text. -/
theorem afterElement_suffix {c : Char} {rest after : List Char}
    (found : afterElement c rest = some after) : after <:+ rest := by
  rcases afterElement_cases found with ⟨-, closing, dropped⟩ | ⟨-, comment, rfl, rfl⟩ |
    ⟨-, comment, rfl, left⟩ | ⟨-, rfl⟩
  · have suffix := List.dropWhile_suffix (l := rest) (· != '\x22')
    rw [dropped] at suffix
    exact (List.suffix_cons _ _).trans suffix
  · exact (List.dropWhile_suffix _).trans (List.suffix_cons _ _)
  · exact (afterBlockComment_suffix left).trans (List.suffix_cons _ _)
  · exact List.suffix_refl _

/-- The first stopping mark outside of comments and quoted texts, with what follows it. -/
def landmark (stops : Char → Bool) : List Char → Option (Char × List Char)
  | [] => none
  | c :: rest =>
    if stops c then some (c, rest)
    else
      match _ : afterElement c rest with
      | some after => landmark stops after
      | none => none
termination_by text => text.length
decreasing_by
  have := (afterElement_suffix ‹_›).length_le
  simp only [List.length_cons]
  omega

variable {stops : Char → Bool}

/-- A text that starts with a landmark has it as its next one. -/
theorem landmark_of_stops {c : Char} (stop : stops c = true) (rest : List Char) :
    landmark stops (c :: rest) = some (c, rest) := by
  rw [landmark]
  simp only [stop, if_true]

/-- An element in front does not change the next landmark. -/
theorem landmark_of_element {c : Char} {rest after : List Char} (goesOn : stops c = false)
    (found : afterElement c rest = some after) :
    landmark stops (c :: rest) = landmark stops after := by
  rw [landmark]
  simp only [goesOn, Bool.false_eq_true, if_false]
  split
  · next other otherFound =>
    rw [found] at otherFound
    obtain rfl := Option.some.inj otherFound
    rfl
  · next missing =>
    rw [found] at missing
    contradiction

/-- A quoted text or a comment that is left open hides every landmark. -/
theorem landmark_of_missing {c : Char} {rest : List Char} (goesOn : stops c = false)
    (missing : afterElement c rest = none) : landmark stops (c :: rest) = none := by
  rw [landmark]
  simp only [goesOn, Bool.false_eq_true, if_false]
  split
  · next after present =>
    rw [missing] at present
    contradiction
  · rfl

/-- A landmark ahead means that whatever is opened in front of it is closed. -/
theorem afterElement_isSome {c : Char} {rest : List Char} (goesOn : stops c = false)
    (ahead : (landmark stops (c :: rest)).isSome = true) :
    ∃ after, afterElement c rest = some after ∧ (landmark stops after).isSome = true := by
  cases found : afterElement c rest with
  | some after => exact ⟨after, rfl, by rwa [landmark_of_element goesOn found] at ahead⟩
  | none =>
    rw [landmark_of_missing goesOn found] at ahead
    contradiction

section Kept

variable (known : ∀ c, stops c = true → isLandmark c = true)

include known

/-- What is no landmark at all is none of those that are looked for. -/
theorem stops_false {c : Char} (unmarked : isLandmark c = false) : stops c = false := by
  by_contra stop
  rw [known c (by simpa using stop)] at unmarked
  contradiction

/-- An inert character is passed on the way to the next landmark. -/
theorem landmark_of_inert {c : Char} (inert : isInert c = true) (rest : List Char) :
    landmark stops (c :: rest) = landmark stops rest := by
  simp only [isInert, Bool.and_eq_true, Bool.not_eq_true', bne_iff_ne, ne_eq] at inert
  obtain ⟨⟨unmarked, notQuote⟩, notSlash⟩ := inert
  exact landmark_of_element (stops_false known unmarked)
    (afterElement_of_standsAlone ⟨notQuote, fun isSlash => absurd isSlash notSlash⟩)

/-- A token of inert characters is passed on the way to the next landmark. -/
theorem landmark_of_split {text taken rest : List Char}
    (split : InertSplit isInert text taken rest) :
    landmark stops text = landmark stops rest := by
  rw [← split.append]
  have inert := split.inert
  clear split
  induction taken with
  | nil => rfl
  | cons c taken inductionHypothesis =>
    rw [List.cons_append, landmark_of_inert known (inert c (List.mem_cons_self ..))]
    exact inductionHypothesis fun c member => inert c (List.mem_cons_of_mem _ member)

/-- White space or a comment is passed on the way to the next landmark. -/
theorem landmark_of_blankItem {text rest : List Char} (found : afterBlankItem text = some rest) :
    landmark stops text = landmark stops rest := by
  have slash : stops '/' = false := stops_false known (by decide)
  rcases afterBlankItem_cases found with ⟨comment, rfl, rfl⟩ | ⟨comment, rfl, left⟩ |
    ⟨c, rfl, -, isSpace⟩
  · exact landmark_of_element slash rfl
  · exact landmark_of_element slash left
  · exact landmark_of_inert known (isInert_of_isWhiteSpace _ isSpace) _

/-- The next landmark is the same before and after a blank, by induction over its items. -/
theorem landmark_afterBlank (text : List Char) :
    landmark stops (afterBlank text) = landmark stops text := by
  induction text using afterBlank.induct with
  | case1 text rest found inductionHypothesis =>
    rw [afterBlank_of_some found, inductionHypothesis, landmark_of_blankItem known found]
  | case2 text missing => rw [afterBlank_of_none missing]

/-- A quoted text is passed as one element, whatever marks stand in it. -/
theorem landmark_of_quoted {text taken rest : List Char}
    (found : scanQuoted text = some (taken, rest)) :
    landmark stops text = landmark stops rest := by
  cases text with
  | nil => contradiction
  | cons c text =>
    simp only [scanQuoted, scanWhile, beq_iff_eq] at found
    split at found <;> try contradiction
    next isQuote =>
      subst isQuote
      split at found <;> try contradiction
      next content closing after same =>
        obtain ⟨rfl, rfl⟩ := found
        exact landmark_of_element (stops_false known (by decide))
          (afterElement_quote (Prod.mk.inj same).2)

/-- A quiet token neither is a stopping mark nor begins a comment or a quoted text by itself. -/
def Token.Quiet (stops : Char → Bool) : Token → Prop
  | .symbol mark => stops mark = false ∧ mark ≠ '\x22' ∧ mark ≠ '/'
  | _ => True

instance (stops : Char → Bool) : DecidablePred (Token.Quiet stops)
  | .symbol _ => inferInstanceAs (Decidable (_ ∧ _ ∧ _))
  | .blank | .ellipsis | .keyword _ | .name | .primitive | .number | .quoted =>
    inferInstanceAs (Decidable True)

/-- A token that is no landmark itself leaves the next one where it is. -/
theorem landmark_scan {kind : Token} (quiet : kind.Quiet stops) {text taken rest : List Char}
    (found : kind.scan text = some (taken, rest)) : landmark stops text = landmark stops rest := by
  cases kind with
  | blank =>
    obtain ⟨-, rfl⟩ := Prod.mk.inj (Option.some.inj found)
    exact (landmark_afterBlank known text).symm
  | symbol mark =>
    obtain ⟨goesOn, notQuote, notSlash⟩ := quiet
    rw [scan_symbol found]
    refine landmark_of_element goesOn ?_
    simp only [afterElement, beq_iff_eq, notQuote, notSlash, if_false]
  | ellipsis =>
    exact landmark_of_split known
      ((scanPart_inert isInert_of_isTokenPart (by decide) (by decide)).splits found)
  | keyword word =>
    exact landmark_of_split known ((scanKeyword_inert isInert_of_isTokenPart word).splits found)
  | name =>
    exact landmark_of_split known ((scanName_inert isInert_of_isTokenPart).splits found)
  | primitive =>
    exact landmark_of_split known
      ((scanPrimitive_inert isInert_of_isTokenPart isInert_of_isWhiteSpace).splits found)
  | number =>
    exact landmark_of_split known ((scanNumber_inert isInert_of_isTokenPart).splits found)
  | quoted => exact landmark_of_quoted known found

end Kept

/-! ### Texts with a semicolon ahead -/

def isSemicolon (c : Char) : Bool := c == ';'

theorem isLandmark_of_isSemicolon (c : Char) (semicolon : isSemicolon c = true) :
    isLandmark c = true := by
  obtain rfl := beq_iff_eq.mp semicolon
  decide

/-- A semicolon stands ahead, outside of comments and quoted texts. -/
def SemicolonAhead (text : List Char) : Prop := (landmark isSemicolon text).isSome = true

/-- A semicolon ahead is a character of the text. -/
theorem mem_of_semicolonAhead {text : List Char} (ahead : SemicolonAhead text) : ';' ∈ text := by
  unfold SemicolonAhead at ahead
  induction text using landmark.induct isSemicolon with
  | case1 => simp [landmark] at ahead
  | case2 c rest semicolon =>
    obtain rfl := beq_iff_eq.mp semicolon
    exact List.mem_cons_self ..
  | case3 c rest goesOn after found inductionHypothesis =>
    rw [landmark_of_element (eq_false_of_ne_true goesOn) found] at ahead
    exact List.mem_cons_of_mem _ ((afterElement_suffix found).mem (inductionHypothesis ahead))
  | case4 c rest goesOn missing =>
    rw [landmark_of_missing (eq_false_of_ne_true goesOn) missing] at ahead
    contradiction

theorem SemicolonAhead.bounded {text : List Char} (ahead : SemicolonAhead text) :
    Bounded isInert text :=
  ⟨';', mem_of_semicolonAhead ahead, by decide⟩

/-- A block comment that ends does so whatever is appended. -/
theorem afterBlockComment_append {text rest : List Char} (extension : List Char)
    (found : afterBlockComment text = some rest) :
    afterBlockComment (text ++ extension) = some (rest ++ extension) := by
  induction text using afterBlockComment.induct with
  | case1 => contradiction
  | case2 inner =>
    obtain rfl := Option.some.inj found
    rfl
  | case3 c inner notEnd inductionHypothesis =>
    rw [afterBlockComment] at found
    · rw [List.cons_append, afterBlockComment]
      · exact inductionHypothesis found
      · intro other star same
        cases inner with
        | nil => contradiction
        | cons slash inner =>
          obtain ⟨rfl, -⟩ := List.cons.inj same
          exact notEnd inner star rfl
    · exact notEnd

/-- Only a line comment at the end of a text goes on in the text behind it. -/
theorem afterBlankItem_append_or {text rest : List Char} (extension : List Char)
    (found : afterBlankItem text = some rest) :
    afterBlankItem (text ++ extension) = some (rest ++ extension) ∨
      rest = [] ∧ afterBlankItem (text ++ extension) =
        some (extension.dropWhile (· != '\n')) := by
  rcases afterBlankItem_cases found with ⟨comment, rfl, rfl⟩ | ⟨comment, rfl, left⟩ |
    ⟨c, rfl, notSlash, isSpace⟩
  · by_cases ends : comment.dropWhile (· != '\n') = []
    · refine .inr ⟨ends, ?_⟩
      change some ((comment ++ extension).dropWhile (· != '\n')) = _
      rw [List.dropWhile_append, ends]
      rfl
    · exact .inl (congrArg some (takeWhile_append_of_stop extension ends).2)
  · exact .inl (afterBlockComment_append extension left)
  · rw [List.cons_append, afterBlankItem_of_ne_slash notSlash, if_pos isSpace]
    exact .inl rfl

/-- With a semicolon ahead, the first blank item does not see what is appended. -/
theorem afterBlankItem_append {text : List Char} (extension : List Char)
    (ahead : SemicolonAhead text) :
    afterBlankItem (text ++ extension) = (afterBlankItem text).map (· ++ extension) := by
  cases text with
  | nil => exact absurd (mem_of_semicolonAhead ahead) List.not_mem_nil
  | cons c rest =>
    by_cases isSlash : c = '/'
    · subst isSlash
      obtain ⟨after, found, aheadAfter⟩ := afterElement_isSome (by decide) ahead
      cases rest with
      | nil =>
        have := mem_of_semicolonAhead ahead
        simp at this
      | cons mark inner =>
        by_cases isLine : mark = '/'
        · subst isLine
          obtain rfl := Option.some.inj found
          have ends : inner.dropWhile (· != '\n') ≠ [] := by
            intro empty
            rw [empty] at aheadAfter
            simp [landmark] at aheadAfter
          change some ((inner ++ extension).dropWhile (· != '\n')) = some _
          rw [(takeWhile_append_of_stop extension ends).2]
        · by_cases isBlock : mark = '*'
          · subst isBlock
            change afterBlockComment inner = some after at found
            change afterBlockComment (inner ++ extension) = (afterBlockComment inner).map _
            rw [found, afterBlockComment_append extension found]
            rfl
          · simp [afterBlankItem, isLine, isBlock, Text.isWhiteSpace]
    · rw [List.cons_append, afterBlankItem_of_ne_slash isSlash, afterBlankItem_of_ne_slash isSlash]
      split <;> rfl

/-- With a semicolon ahead, a blank ends where it ended without what is appended. -/
theorem afterBlank_append {text : List Char} (extension : List Char)
    (ahead : SemicolonAhead text) :
    afterBlank (text ++ extension) = afterBlank text ++ extension := by
  induction text using afterBlank.induct with
  | case1 text rest found inductionHypothesis =>
    have foundLonger := afterBlankItem_append extension ahead
    rw [found] at foundLonger
    have aheadRest : SemicolonAhead rest := by
      unfold SemicolonAhead
      rwa [← landmark_of_blankItem isLandmark_of_isSemicolon found]
    rw [afterBlank_of_some foundLonger, afterBlank_of_some found, inductionHypothesis aheadRest]
  | case2 text missing =>
    have missingLonger := afterBlankItem_append extension ahead
    rw [missing] at missingLonger
    rw [afterBlank_of_none missingLonger, afterBlank_of_none missing]

/-- With a semicolon ahead, a quoted text is closed before what is appended. -/
theorem scanQuoted_append {text : List Char} (extension : List Char)
    (ahead : SemicolonAhead text) :
    scanQuoted (text ++ extension) = extended extension (scanQuoted text) := by
  cases text with
  | nil => exact absurd (mem_of_semicolonAhead ahead) List.not_mem_nil
  | cons c rest =>
    simp only [List.cons_append, scanQuoted, scanWhile, beq_iff_eq]
    by_cases isQuote : c = '\x22'
    · subst isQuote
      obtain ⟨after, found, -⟩ := afterElement_isSome (by decide) ahead
      simp only [afterElement, beq_self_eq_true, if_true] at found
      split at found <;> try contradiction
      next closing after' dropped =>
        have stop : rest.dropWhile (· != '\x22') ≠ [] := by simp [dropped]
        obtain ⟨taken, droppedLonger⟩ := takeWhile_append_of_stop extension stop
        simp only [taken, droppedLonger, dropped, if_true, List.cons_append, extended_some]
    · simp only [isQuote, if_false, extended_none]

/-- With a semicolon ahead, no token looks past the end of the text. -/
theorem scan_append (kind : Token) {text : List Char} (extension : List Char)
    (ahead : SemicolonAhead text) :
    kind.scan (text ++ extension) = extended extension (kind.scan text) := by
  cases kind with
  | blank =>
    simp only [Token.scan, scanBlank, afterBlank_append extension ahead, extended_some,
      Option.some.injEq, Prod.mk.injEq, and_true]
    exact Grammar.consumed_append text _ extension
  | symbol mark =>
    cases text with
    | nil => exact absurd (mem_of_semicolonAhead ahead) List.not_mem_nil
    | cons c rest =>
      simp only [Token.scan, scanSpelling, List.cons_append, List.isPrefixOf_cons_cons,
        List.isPrefixOf_nil_left, Bool.and_true]
      split <;> rfl
  | ellipsis =>
    exact (scanPart_inert isInert_of_isTokenPart (by decide) (by decide)).append extension
      ahead.bounded
  | keyword word =>
    exact (scanKeyword_inert isInert_of_isTokenPart word).append extension ahead.bounded
  | name => exact (scanName_inert isInert_of_isTokenPart).append extension ahead.bounded
  | primitive =>
    exact (scanPrimitive_inert isInert_of_isTokenPart isInert_of_isWhiteSpace).append extension
      ahead.bounded
  | number => exact (scanNumber_inert isInert_of_isTokenPart).append extension ahead.bounded
  | quoted => exact scanQuoted_append extension ahead

end InterfaceAudit.Idl
