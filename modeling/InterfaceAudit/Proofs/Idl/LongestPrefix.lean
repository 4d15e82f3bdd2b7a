import InterfaceAudit.Proofs.Idl.Concatenation
import InterfaceAudit.Proofs.Idl.Truncation

/-!
The place of a syntax error.
A file stops at the end of its longest accepted prefix: up to there every definition is confined to
the text in front of the cut, and a longer accepted prefix would have been read on.
-/

namespace InterfaceAudit.Idl

open Grammar
open Text (newlines)

/-! ### Blanks -/

/-- A blank item that ends in front of the cut is there without the rest. -/
theorem afterBlankItem_of_append {text rest extension : List Char}
    (found : afterBlankItem (text ++ extension) = some (rest ++ extension)) :
    afterBlankItem text = some rest := by
  rcases afterBlankItem_cases found with ⟨comment, same, left⟩ | ⟨comment, same, left⟩ |
    ⟨c, same, notSlash, isSpace⟩
  · obtain ⟨front, rfl⟩ := exists_append_of_suffix (left ▸ List.dropWhile_suffix _)
    rw [← List.cons_append, ← List.cons_append] at same
    rw [List.append_cancel_right same]
    exact congrArg some (dropWhile_of_append left)
  · obtain ⟨front, rfl⟩ := exists_append_of_suffix (afterBlockComment_suffix left)
    rw [← List.cons_append, ← List.cons_append] at same
    rw [List.append_cancel_right same]
    exact afterBlockComment_of_append left
  · rw [← List.cons_append] at same
    rw [List.append_cancel_right same, afterBlankItem_of_ne_slash notSlash, if_pos isSpace]

/-- A blank that ends in front of the cut is there without the rest. -/
theorem afterBlank_of_append {text rest extension : List Char}
    (found : afterBlank (text ++ extension) = rest ++ extension) : afterBlank text = rest := by
  generalize whole : text ++ extension = long at found
  induction long using afterBlank.induct generalizing text with
  | case1 long behind item inductionHypothesis =>
    subst whole
    rw [afterBlank_of_some item] at found
    obtain ⟨front, rfl⟩ := exists_append_of_suffix (found ▸ afterBlank_suffix behind)
    rw [afterBlank_of_some (afterBlankItem_of_append item)]
    exact inductionHypothesis rfl found
  | case2 long missing =>
    subst whole
    rw [afterBlank_of_none missing] at found
    rw [← List.append_cancel_right found]
    apply afterBlank_of_none
    cases item : afterBlankItem text with
    | none => rfl
    | some behind =>
      rcases afterBlankItem_append_or extension item with longer | ⟨-, longer⟩
      · rw [missing] at longer
        contradiction
      · rw [missing] at longer
        contradiction

/-- The blank at the end of a text ends in front of it or somewhere behind it. -/
theorem afterBlank_append_suffix {first : List Char} (second : List Char)
    (ends : afterBlank first = []) : afterBlank (first ++ second) <:+ second := by
  induction first using afterBlank.induct with
  | case1 first rest found inductionHypothesis =>
    rw [afterBlank_of_some found] at ends
    rcases afterBlankItem_append_or second found with longer | ⟨-, longer⟩
    · rw [afterBlank_of_some longer]
      exact inductionHypothesis ends
    · rw [afterBlank_of_some longer]
      exact (afterBlank_suffix _).trans (List.dropWhile_suffix _)
  | case2 first missing =>
    rw [afterBlank_of_none missing] at ends
    rw [ends]
    exact afterBlank_suffix second

/-! ### Definitions up to a cut -/

/-- Definitions start behind the blank. -/
theorem definitionsFrom_suffix_afterBlank (line : Nat) (text : List Char) :
    (definitionsFrom line text).2 <:+ afterBlank text := by
  cases read : grammar.read definition (afterBlank text) with
  | none =>
    exact definitionsFrom_of_none read ▸ List.suffix_refl (afterBlank text)
  | some reading =>
    obtain ⟨found, rest⟩ := reading
    rw [definitionsFrom_of_some read]
    exact (definitionsFrom_suffix _ rest).trans (suffix_of_read read)

/-- The text in front of the place where a file stops is read to its end. -/
theorem definitionsFrom_of_append {line other : Nat} {text rest : List Char}
    (stopped : (definitionsFrom line (text ++ rest)).2 = rest) :
    (definitionsFrom other text).2 = [] := by
  generalize whole : text ++ rest = long at stopped
  induction long using definitions_induction generalizing text line other with
  | step long found behind read inductionHypothesis =>
    subst whole
    rw [definitionsFrom_of_some read] at stopped
    have suffix := definitionsFrom_suffix (line + newlines (consumed (text ++ rest) behind)) behind
    rw [stopped] at suffix
    obtain ⟨last, rfl⟩ := suffix
    obtain ⟨start, same⟩ := exists_append_of_suffix (suffix_of_read read)
    rw [same] at read
    have shorter := confined_definition read
    rw [← afterBlank_of_append same] at shorter
    rw [definitionsFrom_of_some shorter]
    exact inductionHypothesis rfl stopped
  | stop long missing =>
    subst whole
    rw [definitionsFrom_of_none missing] at stopped
    have ends : afterBlank text = [] := afterBlank_of_append stopped
    have suffix := definitionsFrom_suffix_afterBlank other text
    rw [ends] at suffix
    exact List.suffix_nil.mp suffix

/-- Behind a text that is read to its end a longer text is read on. -/
theorem definitionsFrom_append_suffix {line other : Nat} {first : List Char} (second : List Char)
    (complete : (definitionsFrom line first).2 = []) :
    (definitionsFrom other (first ++ second)).2 <:+ second := by
  induction first using definitions_induction generalizing line other with
  | step first found rest read inductionHypothesis =>
    have readLonger := kept_definition read second
    rw [← afterBlank_append second (semicolonAhead_of_read read)] at readLonger
    rw [definitionsFrom_of_some read] at complete
    rw [definitionsFrom_of_some readLonger]
    exact inductionHypothesis complete
  | stop first missing =>
    rw [definitionsFrom_of_none missing] at complete
    exact (definitionsFrom_suffix_afterBlank other _).trans
      (afterBlank_append_suffix second complete)

/-! ### Places in a text -/

/-- The line counts the line feeds in front of the offset, and the column counts the characters
behind the last one. -/
structure SyntaxError.StandsAt (error : SyntaxError) (text : List Char) (offset : Nat) : Prop where
  line : error.line = 1 + (text.take offset).count '\n'
  column : ∃ lines last, text.take offset = lines ++ last ∧
    (lines = [] ∨ lines.getLast? = some '\n') ∧ '\n' ∉ last ∧ error.column = 1 + last.length

/-- The characters behind the last line feed. -/
theorem takeWhile_reverse_of_lines {lines last : List Char}
    (closed : lines = [] ∨ lines.getLast? = some '\n') (inLine : '\n' ∉ last) :
    (lines ++ last).reverse.takeWhile (· != '\n') = last.reverse := by
  have other : ∀ c ∈ last.reverse, (c != '\n') = true := by
    intro c member
    rw [bne_iff_ne]
    rintro rfl
    exact inLine (List.mem_reverse.mp member)
  rw [List.reverse_append, List.takeWhile_append_of_pos other]
  rcases closed with rfl | closed
  · exact List.append_nil _
  · have first := (List.head?_reverse (l := lines)).trans closed
    obtain ⟨front, same⟩ := List.head?_eq_some_iff.mp first
    rw [same, List.takeWhile_cons_of_neg (by decide), List.append_nil]

/-- The line and the column of an error are those of its offset. -/
theorem SyntaxError.standsAt_iff {error : SyntaxError} {text : List Char} {offset : Nat} :
    error.StandsAt text offset ↔ error = .after (text.take offset) := by
  constructor
  · rintro ⟨line, lines, last, same, closed, inLine, column⟩
    obtain ⟨errorLine, errorColumn⟩ := error
    have behind := takeWhile_reverse_of_lines closed inLine
    rw [SyntaxError.after, SyntaxError.mk.injEq]
    refine ⟨line, ?_⟩
    rw [same, behind, List.length_reverse]
    exact column
  · rintro rfl
    generalize same : text.take offset = front
    refine ⟨by rw [same]; rfl, (front.reverse.dropWhile (· != '\n')).reverse,
      (front.reverse.takeWhile (· != '\n')).reverse, ?_, ?_, ?_, ?_⟩
    · rw [same, ← List.reverse_append, List.takeWhile_append_dropWhile, List.reverse_reverse]
    · rw [List.getLast?_reverse, List.reverse_eq_nil_iff]
      cases dropped : front.reverse.dropWhile (· != '\n') with
      | nil => exact .inl rfl
      | cons c others =>
        have nonempty : front.reverse.dropWhile (· != '\n') ≠ [] := by
          rw [dropped]
          exact List.cons_ne_nil c others
        have stops := List.head_dropWhile_not (· != '\n') nonempty
        simp only [dropped, List.head_cons, bne_eq_false_iff_eq] at stops
        exact .inr (congrArg some stops)
    · rw [List.mem_reverse]
      intro member
      exact absurd (List.mem_takeWhile_imp member) (by decide)
    · rw [List.length_reverse]
      rfl

/-- A line and a column stand for one offset. -/
theorem SyntaxError.eq_nil_of_after_append {front more : List Char}
    (same : SyntaxError.after (front ++ more) = .after front) : more = [] := by
  obtain ⟨line, column⟩ := SyntaxError.mk.inj same
  have inLine : '\n' ∉ more := by
    rw [← List.count_eq_zero]
    rw [newlines, newlines, List.count_append] at line
    omega
  have other : ∀ c ∈ more.reverse, (c != '\n') = true := by
    intro c member
    rw [bne_iff_ne]
    rintro rfl
    exact inLine (List.mem_reverse.mp member)
  rw [List.reverse_append, List.takeWhile_append_of_pos other, List.length_append,
    List.length_reverse] at column
  exact List.length_eq_zero_iff.mp (by omega)

/-- No two offsets have the same line and column. -/
theorem SyntaxError.StandsAt.unique {error : SyntaxError} {text : List Char} {first second : Nat}
    (firstStands : error.StandsAt text first) (secondStands : error.StandsAt text second)
    (firstWithin : first ≤ text.length) (secondWithin : second ≤ text.length) :
    first = second := by
  have ordered {first second : Nat} (firstStands : error.StandsAt text first)
      (secondStands : error.StandsAt text second) (within : second ≤ text.length)
      (less : first ≤ second) : first = second := by
    rw [standsAt_iff] at firstStands secondStands
    have shorter : (text.take second).take first = text.take first := by
      rw [List.take_take, min_eq_left less]
    have split := List.take_append_drop first (text.take second)
    rw [shorter] at split
    rw [firstStands, ← split] at secondStands
    have length := congrArg List.length (eq_nil_of_after_append secondStands.symm)
    rw [List.length_drop, List.length_take, min_eq_left within, List.length_nil] at length
    omega
  rcases Nat.le_total first second with less | less
  · exact ordered firstStands secondStands secondWithin less
  · exact (ordered secondStands firstStands firstWithin less).symm

/-! ### Longest accepted prefixes -/

def Accepted (text : List Char) : Prop := ∃ document, Document.parse text = .ok document

/-- A text is accepted when its definitions leave nothing. -/
theorem accepted_iff {text : List Char} : Accepted text ↔ (definitionsFrom 1 text).2 = [] := by
  rw [Accepted, parse_eq_definitionsFrom]
  by_cases complete : (definitionsFrom 1 text).2.isEmpty = true
  · simp [List.isEmpty_iff.mp complete]
  · have incomplete : (definitionsFrom 1 text).2 ≠ [] := fun empty => by simp [empty] at complete
    simp [complete, incomplete]

/-- No longer prefix of the text is accepted. -/
structure LongestAccepted (text : List Char) (offset : Nat) : Prop where
  within : offset ≤ text.length
  accepted : Accepted (text.take offset)
  longest : ∀ other, other ≤ text.length → Accepted (text.take other) → other ≤ offset

/-- A file stops at the end of its longest accepted prefix. -/
theorem longestAccepted_consumed (text : List Char) :
    LongestAccepted text (consumed text (definitionsFrom 1 text).2).length := by
  obtain ⟨front, split⟩ := definitionsFrom_suffix 1 text
  generalize stopped : (definitionsFrom 1 text).2 = rest at split
  subst split
  rw [consumed_of_append]
  constructor
  · rw [List.length_append]
    exact Nat.le_add_right _ _
  · rw [List.take_left', accepted_iff]
    · exact definitionsFrom_of_append stopped
    · rfl
  · intro other within accepted
    have suffix := @definitionsFrom_append_suffix 1 1 _ ((front ++ rest).drop other)
      (accepted_iff.mp accepted)
    rw [List.take_append_drop, stopped] at suffix
    have length := suffix.length_le
    rw [List.length_drop, List.length_append] at length
    rw [List.length_append] at within
    omega

/-- A syntax error stands at the end of the longest accepted prefix and nowhere else; a text without
an error is its own longest accepted prefix. -/
theorem parse_longestAccepted (text : List Char) :
    ∃ offset, LongestAccepted text offset ∧
      match Document.parse text with
      | .ok _ => offset = text.length
      | .error error =>
        offset < text.length ∧
          ∀ other, other ≤ text.length → (error.StandsAt text other ↔ other = offset) := by
  have longest := longestAccepted_consumed text
  refine ⟨_, longest, ?_⟩
  rw [parse_eq_definitionsFrom]
  obtain ⟨front, split⟩ := definitionsFrom_suffix 1 text
  generalize (definitionsFrom 1 text).2 = rest at split longest
  subst split
  rw [consumed_of_append] at longest ⊢
  cases rest with
  | nil => simp
  | cons c others =>
    have stands : (SyntaxError.after front).StandsAt (front ++ c :: others) front.length := by
      rw [SyntaxError.standsAt_iff, List.take_left]
    refine ⟨by simp, fun other within => ⟨fun otherStands => ?_, fun same => same ▸ stands⟩⟩
    exact otherStands.unique stands within longest.within

end InterfaceAudit.Idl
