import InterfaceAudit.Proofs.Narrative.Confinement

/-!
Marks of static methods.
The mark is searched for in a window of fixed size, which does not end where the section of the
method ends. A window that reaches behind the section finds the mark of another method as well.
-/

namespace InterfaceAudit.Narrative

open Text

/-- A section goes from its heading to the next line that ends it, or to the end of the text. -/
structure Divides (start own rest : List Char) : Prop where
  append : start = own ++ rest
  ends : rest = [] ∨ ∃ line, rest = '\n' :: line ∧ EndsSection methodEnds line
  plain : ∀ line ∈ (splitOn '\n' own).tail, ¬ EndsSection methodEnds line

/-- The text from a heading on is its own part and the rest. -/
theorem exists_divides (start : List Char) : ∃ own rest, Divides start own rest := by
  obtain ⟨own, rest, split⟩ : ∃ own rest, splitAtMarks methodMarks start = (own, rest) :=
    ⟨_, _, rfl⟩
  obtain ⟨append, goesOn, -⟩ := splitAtMarks_eq split
  refine ⟨own, rest, append, ?_, fun line => not_endsSection_of_mem_tail methodEnds split⟩
  rcases goesOn with none | ⟨mark, member, back, rfl⟩
  · exact .inl none
  · have isMark : mark ∈ methodEnds.map ('\n' :: ·) := member
    obtain ⟨heading, isEnd, rfl⟩ := List.mem_map.mp isMark
    exact .inr ⟨heading ++ back, rfl, heading, isEnd, List.prefix_append ..⟩

/-- The rest starts with a line feed. -/
theorem Divides.behindLine {start own rest : List Char} (divides : Divides start own rest) :
    BehindLine rest := by
  rcases divides.ends with rfl | ⟨line, rfl, -⟩
  · simp [BehindLine]
  · exact behindLine_feed line

/-! ### Parts of a window -/

/-- A text contains another one when it has it as a part. -/
theorem contains_iff {part text : List Char} : contains part text = true ↔ part <:+: text := by
  rw [contains, Option.isSome_iff_exists]
  constructor
  · rintro ⟨behind, found⟩
    obtain ⟨front, back, rfl, spelled⟩ := leftmost_eq_some found
    rw [afterSpelling_eq_some_iff.mp spelled]
    exact ⟨front, behind, List.append_assoc ..⟩
  · rintro ⟨front, back, rfl⟩
    induction front with
    | nil => exact ⟨back, leftmost_of_some (afterSpelling_append part back)⟩
    | cons c front inductionHypothesis =>
      rw [List.cons_append, List.cons_append, leftmost]
      split
      · exact ⟨_, rfl⟩
      · exact inductionHypothesis

/-- A window of a text starts at a suffix of it, and takes as much as its size tells. -/
theorem window_of_suffix {content start : List Char} (isSuffix : start <:+ content)
    (lookahead : Nat) : window content.length lookahead start = start.take lookahead := by
  have shorter := isSuffix.length_le
  rw [window, if_pos (by omega), Int.toNat_natCast]

/-- A mark in the window stands in the own part or in the rest, never across both. -/
theorem Divides.mark_in_window {start own rest : List Char} (divides : Divides start own rest)
    (lookahead : Nat) :
    staticMark <:+: start.take lookahead ↔
      staticMark <:+: own.take lookahead ∨ staticMark <:+: rest.take (lookahead - own.length) := by
  rw [divides.append, List.take_append]
  exact infix_append_iff (by decide) (divides.behindLine.take _)

/-! ### Static methods -/

/-- A method is static when the mark stands in the window that begins at the heading of its last
section: in the section itself, or in what the window takes of the text behind it. -/
theorem read_static_iff (lookahead : Nat) (text : List Char) {name : String}
    {algorithm : Algorithm} (recorded : (read lookahead text).methods.get? name = some algorithm) :
    ∃ before start found after own rest,
      sections (joinReturns text) = before ++ (start, found) :: after ∧
      String.ofList found.name = name ∧
      (∀ later ∈ after, String.ofList later.2.name ≠ name) ∧
      Divides start own rest ∧
      (algorithm.isStatic = true ↔
        staticMark <:+: own.take lookahead ∨
          staticMark <:+: rest.take (lookahead - own.length)) := by
  obtain ⟨before, start, found, after, split, sameName, others, rfl⟩ :=
    exists_last_section recorded
  have member : (start, found) ∈ sections (joinReturns text) := by
    rw [split]
    exact List.mem_append_cons_self
  obtain ⟨own, rest, divides⟩ := exists_divides start
  refine ⟨before, start, found, after, own, rest, split, sameName, others, divides, ?_⟩
  show contains staticMark (window (joinReturns text).length lookahead start) = true ↔ _
  rw [contains_iff, window_of_suffix (mem_sections member).1]
  exact divides.mark_in_window lookahead

/-- A method without the mark. -/
def closeMethod : List Char :=
  ended ["### close".toList, [], "**Signature:** \x60undefined close()\x60".toList, [],
    "**Algorithm:**".toList, [], "1. Run the close algorithm.".toList]

def markedReset : List Char :=
  ended ["### reset".toList, [], staticMark, [], "**Signature:** \x60undefined reset()\x60".toList,
    [], "**Algorithm:**".toList, [], "1. Reset.".toList]

/-- A marked method is static, with its own mark inside the window. -/
theorem read_static_iff_reset :
    let content := closeMethod ++ '\n' :: markedReset
    (read 30 content).methods.get? "reset" = some ⟨"undefined reset()", true, ["Reset."]⟩ ∧
    ∃ start own rest, start ∈ (sections content).map Prod.fst ∧ Divides start own rest ∧
      (staticMark <:+: own.take 30 ∨ staticMark <:+: rest.take (30 - own.length)) := by
  intro content
  have recorded : (read 30 content).methods.get? "reset" =
      some ⟨"undefined reset()", true, ["Reset."]⟩ := by decide +kernel
  obtain ⟨before, start, found, after, own, rest, split, -, -, divides, isStatic⟩ :=
    read_static_iff 30 content recorded
  have joined : joinReturns content = content := by decide +kernel
  rw [joined] at split
  refine ⟨recorded, start, own, rest, ?_, divides, isStatic.mp rfl⟩
  rw [split, List.map_append]
  exact List.mem_append_cons_self

/-- A short method takes the mark of the method below it. -/
theorem read_marked_below :
    let content := closeMethod ++ '\n' :: markedReset
    (sections content).map (fun (start, found) => (start, String.ofList found.name)) =
      [(content, "close"), (markedReset, "reset")] ∧
    (read defaultLookahead content).methods.get? "close" =
      some ⟨"undefined close()", true, ["Run the close algorithm."]⟩ ∧
    Divides content closeMethod ('\n' :: markedReset) ∧ ¬ staticMark <:+: closeMethod := by
  refine ⟨by decide +kernel, by decide +kernel, ⟨rfl, .inr ⟨markedReset, rfl, ?_⟩, ?_⟩,
    by decide +kernel⟩
  · exact ⟨"### ".toList, by decide, by decide +kernel⟩
  · unfold EndsSection
    decide +kernel

end InterfaceAudit.Narrative
