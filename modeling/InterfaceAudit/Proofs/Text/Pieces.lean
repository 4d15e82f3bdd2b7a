import InterfaceAudit.Proofs.Text.Mark

/-!
Pieces of a text: what stands between its marks, and where a piece stands in the text.
-/

namespace InterfaceAudit.Text

variable {mark : Char} {text piece : List Char} {pieces : List (List Char)}

/-- Splitting at a mark is that of the library. -/
theorem splitOn_eq (mark : Char) (text : List Char) :
    splitOn mark text = List.splitOn mark text := by
  induction text with
  | nil => rfl
  | cons c text inductionHypothesis =>
    obtain ⟨first, others, split⟩ := List.exists_cons_of_ne_nil (List.splitOn_ne_nil mark text)
    have step : List.splitOn mark (c :: text) =
        if c == mark then [] :: List.splitOn mark text
        else (List.splitOn mark text).modifyHead (c :: ·) := by
      simp only [List.splitOn_eq_splitOnP, List.splitOnP_cons_eq_if_modifyHead]
    rw [splitOn, inductionHypothesis, step, split]
    rfl

theorem splitOn_ne_nil (mark : Char) (text : List Char) : splitOn mark text ≠ [] := by
  rw [splitOn_eq]
  exact List.splitOn_ne_nil mark text

/-- A character that is no mark belongs to the first piece. -/
theorem splitOn_cons_of_ne {c : Char} (apart : c ≠ mark)
    (split : splitOn mark text = piece :: pieces) :
    splitOn mark (c :: text) = (c :: piece) :: pieces := by
  rw [splitOn, split]
  simp [apart]

/-- A text without the mark belongs to the first piece. -/
theorem splitOn_append_of_not_mem {front : List Char} (free : mark ∉ front)
    (split : splitOn mark text = piece :: pieces) :
    splitOn mark (front ++ text) = (front ++ piece) :: pieces := by
  induction front with
  | nil => exact split
  | cons c front inductionHypothesis =>
    obtain ⟨different, others⟩ := not_or.mp (List.mem_cons.not.mp free)
    exact splitOn_cons_of_ne (Ne.symm different) (inductionHypothesis others)

/-- The first piece ends at the first mark, and the other pieces are those of the text behind it. -/
theorem splitOn_eq_cons (split : splitOn mark text = piece :: pieces) :
    mark ∉ piece ∧
      (pieces = [] ∧ text = piece ∨
        ∃ rest, text = piece ++ mark :: rest ∧ splitOn mark rest = pieces) := by
  induction text generalizing piece with
  | nil =>
    obtain ⟨rfl, rfl⟩ := List.cons.inj split
    exact ⟨List.not_mem_nil, .inl ⟨rfl, rfl⟩⟩
  | cons c text inductionHypothesis =>
    by_cases same : c = mark
    · subst same
      rw [splitOn, beq_self_eq_true, if_pos rfl] at split
      obtain ⟨rfl, rfl⟩ := List.cons.inj split
      exact ⟨List.not_mem_nil, .inr ⟨text, rfl, rfl⟩⟩
    · obtain ⟨first, others, behind⟩ := List.exists_cons_of_ne_nil (splitOn_ne_nil mark text)
      rw [splitOn_cons_of_ne same behind] at split
      obtain ⟨rfl, rfl⟩ := List.cons.inj split
      obtain ⟨free, parts⟩ := inductionHypothesis behind
      refine ⟨?_, ?_⟩
      · rw [List.mem_cons, not_or]
        exact ⟨Ne.symm same, free⟩
      · rcases parts with ⟨rfl, rfl⟩ | ⟨rest, rfl, others⟩
        · exact .inl ⟨rfl, rfl⟩
        · exact .inr ⟨rest, rfl, others⟩

/-- No piece holds the mark. -/
theorem not_mem_of_mem_splitOn (member : piece ∈ splitOn mark text) : mark ∉ piece := by
  generalize split : splitOn mark text = pieces at member
  induction pieces generalizing text with
  | nil => contradiction
  | cons first pieces inductionHypothesis =>
    obtain ⟨free, parts⟩ := splitOn_eq_cons split
    rcases List.mem_cons.mp member with rfl | later
    · exact free
    · rcases parts with ⟨rfl, -⟩ | ⟨rest, -, behind⟩
      · contradiction
      · exact inductionHypothesis behind later

/-- The pieces with marks between them are the text. -/
theorem intercalate_splitOn (mark : Char) (text : List Char) :
    List.intercalate [mark] (splitOn mark text) = text := by
  rw [splitOn_eq]
  exact List.intercalate_splitOn mark

/-- The pieces behind a mark are those of the text behind it. -/
theorem splitOn_append_mark (mark : Char) (front back : List Char) :
    splitOn mark (front ++ mark :: back) = splitOn mark front ++ splitOn mark back := by
  simp only [splitOn_eq, List.splitOn_eq_splitOnP]
  exact List.splitOnP_append_cons front back (beq_self_eq_true mark)

/-! ### Lines -/

/-- Ended lines are split off in front of the rest. -/
theorem splitOn_ended_append {lines : List (List Char)} (free : ∀ line ∈ lines, '\n' ∉ line)
    (rest : List Char) : splitOn '\n' (ended lines ++ rest) = lines ++ splitOn '\n' rest := by
  induction lines with
  | nil => rfl
  | cons line lines inductionHypothesis =>
    obtain ⟨first, others⟩ := List.forall_mem_cons.mp free
    rw [ended_cons, List.append_assoc, List.cons_append, splitOn_append first,
      inductionHypothesis others, List.cons_append]

/-- A text that goes on at the end of a line. -/
def BehindLine (text : List Char) : Prop := ∀ c ∈ text.head?, c = '\n'

theorem behindLine_feed (rest : List Char) : BehindLine ('\n' :: rest) := by simp [BehindLine]

/-- What stands behind a line may go on. -/
theorem BehindLine.append {text rest : List Char} (behind : BehindLine text)
    (restBehind : BehindLine rest) : BehindLine (text ++ rest) := by
  cases text with
  | nil => exact restBehind
  | cons c text => exact behind

/-- What stands behind a line may be cut off. -/
theorem BehindLine.take {text : List Char} (behind : BehindLine text) (count : Nat) :
    BehindLine (text.take count) := by
  cases count with
  | zero => simp [BehindLine]
  | succ count =>
    cases text with
    | nil => exact behind
    | cons c text => exact behind

/-- A start without a line feed does not go on behind a line. -/
theorem prefix_of_prefix_append {start line rest : List Char} (free : '\n' ∉ start)
    (behind : BehindLine rest) (isPrefix : start <+: line ++ rest) : start <+: line := by
  rcases List.prefix_or_prefix_of_prefix isPrefix (List.prefix_append line rest) with
    inside | ⟨more, rfl⟩
  · exact inside
  · cases more with
    | nil => exact ⟨[], by simp⟩
    | cons c more =>
      have goesOn : c :: more <+: rest := (List.prefix_append_right_inj line).mp isPrefix
      obtain ⟨back, rfl⟩ := goesOn
      exact absurd (by simp [behind c rfl]) free

/-- A part without a line feed stands in front of the end of a line or behind it. -/
theorem infix_append_iff {part front rest : List Char} (free : '\n' ∉ part)
    (behind : BehindLine rest) : part <:+: front ++ rest ↔ part <:+: front ∨ part <:+: rest := by
  rw [List.infix_append_iff]
  constructor
  · rintro (inFront | inRest | ⟨before, after, rfl, isSuffix, isPrefix⟩)
    · exact .inl inFront
    · exact .inr inRest
    · cases after with
      | nil => exact .inl ((List.append_nil before).symm ▸ isSuffix.isInfix)
      | cons c after =>
        obtain ⟨back, rfl⟩ := isPrefix
        exact absurd (by simp [behind c rfl]) free
  · rintro (inFront | inRest)
    · exact .inl inFront
    · exact .inr (.inl inRest)

/-- What starts a text without a line feed starts its first line. -/
theorem prefix_line {start rest line : List Char} {others : List (List Char)} (free : '\n' ∉ start)
    (split : splitOn '\n' text = line :: others) (behind : BehindLine rest)
    (isPrefix : start <+: text ++ rest) : start <+: line := by
  obtain ⟨-, ⟨-, rfl⟩ | ⟨back, rfl, -⟩⟩ := splitOn_eq_cons split
  · exact prefix_of_prefix_append free behind isPrefix
  · rw [List.append_assoc] at isPrefix
    exact prefix_of_prefix_append free (behindLine_feed _) isPrefix

/-- What stands in front of a line and behind it. -/
theorem exists_of_splitOn_eq {front behind : List (List Char)} {line : List Char}
    (split : splitOn '\n' text = front ++ line :: behind) :
    ∃ rest, text = ended front ++ (line ++ rest) ∧ BehindLine rest := by
  induction front generalizing text with
  | nil =>
    obtain ⟨-, ⟨-, rfl⟩ | ⟨rest, rfl, -⟩⟩ := splitOn_eq_cons split
    · exact ⟨[], by simp [ended], by simp [BehindLine]⟩
    · exact ⟨'\n' :: rest, by simp [ended], behindLine_feed rest⟩
  | cons first front inductionHypothesis =>
    obtain ⟨-, ⟨none, -⟩ | ⟨rest, rfl, others⟩⟩ := splitOn_eq_cons split
    · simp at none
    · obtain ⟨behindLine, rfl, isBehind⟩ := inductionHypothesis others
      exact ⟨behindLine, by rw [ended_cons, List.append_assoc, List.cons_append], isBehind⟩

/-- Ending the lines again adds one line feed. -/
theorem ended_splitOn (text : List Char) : ended (splitOn '\n' text) = text ++ ['\n'] := by
  generalize split : splitOn '\n' text = pieces
  induction pieces generalizing text with
  | nil => exact absurd split (splitOn_ne_nil '\n' text)
  | cons first pieces inductionHypothesis =>
    obtain ⟨-, ⟨rfl, rfl⟩ | ⟨rest, rfl, behind⟩⟩ := splitOn_eq_cons split
    · simp [ended]
    · rw [ended_cons, inductionHypothesis rest behind, List.append_assoc, List.cons_append]

/-- A line that is not the first one stands behind a line feed. -/
theorem exists_of_mem_tail_splitOn {line : List Char} (later : line ∈ (splitOn '\n' text).tail) :
    ∃ front back, text = front ++ '\n' :: (line ++ back) := by
  obtain ⟨first, others, split⟩ := List.exists_cons_of_ne_nil (splitOn_ne_nil '\n' text)
  rw [split, List.tail_cons] at later
  obtain ⟨front, behind, rfl⟩ := List.append_of_mem later
  obtain ⟨-, ⟨none, -⟩ | ⟨rest, rfl, others⟩⟩ := splitOn_eq_cons split
  · simp at none
  · obtain ⟨back, rfl, -⟩ := exists_of_splitOn_eq others
    rcases front.eq_nil_or_concat with rfl | ⟨front, last, rfl⟩
    · exact ⟨first, back, by simp [ended]⟩
    · exact ⟨first ++ '\n' :: (ended front ++ last), back, by simp [ended]⟩

end InterfaceAudit.Text
