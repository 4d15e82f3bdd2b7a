import InterfaceAudit.Proofs.Text.Blank
import InterfaceAudit.Text.Squeeze

/-!
Pieces of texts: a gap separates them, and how wide it is does not matter.
-/

namespace InterfaceAudit.Text

/-- A plain character starts a word. -/
theorem pieces_of_plain {c : Char} (plain : isPlain c = true) (rest : List Char) :
    ∃ chars others, pieces (c :: rest) = .word (c :: chars) :: others := by
  simp only [isPlain, Bool.and_eq_true, Bool.not_eq_true'] at plain
  unfold pieces
  simp only [plain.1, plain.2, Bool.false_eq_true, if_false]
  split
  · split
    · exact ⟨_, _, rfl⟩
    · exact ⟨_, _, rfl⟩
  · exact ⟨_, _, rfl⟩

/-- No blank is a mark. -/
theorem isMark_false_of_isBlank {c : Char} (blank : isBlank c = true) : isMark c = false := by
  have apart : blankCodes.all (fun code => !isMark (Char.ofNat code)) = true := by decide +kernel
  by_contra mark
  rw [isBlank_false_of_apart apart (by simpa using mark)] at blank
  contradiction

/-- One blank in front is no piece. -/
theorem pieces_cons_of_isBlank {c : Char} (blank : isBlank c = true) (rest : List Char) :
    pieces (c :: rest) = pieces rest := by
  rw [pieces, isMark_false_of_isBlank blank, blank]
  rfl

/-- Blanks in front are no pieces. -/
theorem pieces_append_blank {blank : List Char} (isBlank : Blank blank) (rest : List Char) :
    pieces (blank ++ rest) = pieces rest := by
  induction blank with
  | nil => rfl
  | cons c blank inductionHypothesis =>
    obtain ⟨first, others⟩ := List.forall_mem_cons.mp isBlank
    rw [List.cons_append, pieces_cons_of_isBlank first, inductionHypothesis others]

/-- A word ends in front of a mark and in front of a blank. -/
theorem pieces_append_of_not_plain {c : Char} (notPlain : isPlain c = false)
    (first second : List Char) :
    pieces (first ++ c :: second) = pieces first ++ pieces (c :: second) := by
  induction first with
  | nil => rfl
  | cons first others inductionHypothesis =>
    rw [List.cons_append, pieces, pieces, inductionHypothesis]
    by_cases firstMark : isMark first = true
    · simp [firstMark]
    · by_cases firstBlank : isBlank first = true
      · simp [firstMark, firstBlank]
      · simp only [firstMark, firstBlank, Bool.false_eq_true, if_false]
        cases others with
        | nil => simp [notPlain, pieces]
        | cons next others =>
          by_cases plain : isPlain next = true
          · obtain ⟨chars, others, same⟩ := pieces_of_plain plain others
            simp [plain, same]
          · simp [plain]

/-- A blank separates pieces. -/
theorem pieces_append_cons {c : Char} (blank : isBlank c = true) (first second : List Char) :
    pieces (first ++ c :: second) = pieces first ++ pieces second := by
  have notPlain : isPlain c = false := by simp [isPlain, blank]
  rw [pieces_append_of_not_plain notPlain, pieces_cons_of_isBlank blank]

/-- A gap separates pieces and is none itself. -/
theorem pieces_append_gap {gap : List Char} (isGap : Gap gap) (first second : List Char) :
    pieces (first ++ (gap ++ second)) = pieces first ++ pieces second := by
  obtain ⟨c, others, rfl⟩ := List.exists_cons_of_ne_nil isGap.ne_nil
  obtain ⟨blank, othersBlank⟩ := List.forall_mem_cons.mp isGap.blank
  rw [List.cons_append, pieces_append_cons blank, pieces_append_blank othersBlank]

/-- A run of plain characters is one word. -/
theorem pieces_run {first : Char} {run : List Char}
    (all : (first :: run).all isPlain = true) : pieces (first :: run) = [.word (first :: run)] := by
  induction run generalizing first with
  | nil =>
    simp only [List.all_cons, List.all_nil, isPlain, Bool.and_eq_true, Bool.not_eq_true'] at all
    simp [pieces, all]
  | cons next run inductionHypothesis =>
    rw [List.all_cons, Bool.and_eq_true] at all
    have nextPlain : isPlain next = true := by
      have second := all.2
      rw [List.all_cons, Bool.and_eq_true] at second
      exact second.1
    have firstPlain := all.1
    simp only [isPlain, Bool.and_eq_true, Bool.not_eq_true'] at firstPlain
    rw [pieces, inductionHypothesis all.2]
    simp [firstPlain, nextPlain]

/-- One gap is squeezed like another. -/
theorem squeeze_gap {gap other : List Char} (isGap : Gap gap) (otherGap : Gap other)
    (first second : List Char) :
    squeeze (first ++ (gap ++ second)) = squeeze (first ++ (other ++ second)) := by
  rw [squeeze, squeeze, pieces_append_gap isGap, pieces_append_gap otherGap]

/-- Blanks at the end are trimmed. -/
theorem trim_append_blank {blank : List Char} (isBlank : Blank blank) (text : List Char) :
    trim (text ++ blank) = trim text := by
  unfold trim trimWhile
  congr 1
  rw [List.dropWhile_append]
  split
  · next empty =>
    have nothing : text.dropWhile Text.isBlank = [] := List.isEmpty_iff.mp empty
    rw [nothing, List.dropWhile_eq_nil_iff.mpr isBlank]
  · rw [List.reverse_append, List.dropWhile_append_of_pos]
    intro c member
    exact isBlank c (List.mem_reverse.mp member)

end InterfaceAudit.Text
