import InterfaceAudit.Proofs.Text.Squeeze

/-!
Squeezing a text from its first character on: marks drop the blank around them, a comma is followed
by one space, and a gap between two words becomes one space.
-/

namespace InterfaceAudit.Text

/-- A mark, and the space behind a comma. -/
theorem squeeze_mark {c : Char} (mark : isMark c = true) (rest : List Char) :
    squeeze (c :: rest) = c :: ((if c == ',' then [' '] else []) ++ squeeze rest) := by
  rw [squeeze, pieces, if_pos mark, glue]
  split
  · next comma => rw [beq_iff_eq.mp comma]; rfl
  · rfl

theorem squeeze_blank {blank : List Char} (isBlank : Blank blank) (rest : List Char) :
    squeeze (blank ++ rest) = squeeze rest :=
  congrArg glue (pieces_append_blank isBlank rest)

/-- A character joins the first word. -/
theorem glue_word_cons (c : Char) (chars : List Char) (others : List Piece) :
    glue (.word (c :: chars) :: others) = c :: glue (.word chars :: others) := by
  cases others with
  | nil => rfl
  | cons next others => cases next <;> rfl

/-- A plain character stands for itself in front of everything but a blank. -/
theorem squeeze_plain {c : Char} (plain : isPlain c = true) {rest : List Char}
    (unindented : Unindented rest) : squeeze (c :: rest) = c :: squeeze rest := by
  have solid := plain
  simp only [isPlain, Bool.and_eq_true, Bool.not_eq_true'] at solid
  rw [squeeze, squeeze, pieces, if_neg (by simp [solid.1]), if_neg (by simp [solid.2])]
  cases rest with
  | nil => rfl
  | cons next rest =>
    by_cases nextPlain : isPlain next = true
    · obtain ⟨chars, others, same⟩ := pieces_of_plain nextPlain rest
      simp only [List.head?_cons, Option.any_some, nextPlain, if_true, same]
      exact glue_word_cons c (next :: chars) others
    · have notBlank := unindented next rfl
      have nextMark : isMark next = true := by
        simpa [isPlain, notBlank] using nextPlain
      simp only [List.head?_cons, Option.any_some, nextPlain, Bool.false_eq_true, if_false]
      rw [pieces, if_pos nextMark]
      rfl

/-- A run of plain characters stands for itself in front of everything but a blank. -/
theorem squeeze_run {run : List Char} (all : run.all isPlain = true) {rest : List Char}
    (unindented : Unindented rest) : squeeze (run ++ rest) = run ++ squeeze rest := by
  induction run with
  | nil => rfl
  | cons c run inductionHypothesis =>
    rw [List.all_cons, Bool.and_eq_true] at all
    have solid : Unindented (run ++ rest) := by
      cases run with
      | nil => exact unindented
      | cons next run =>
        have nextPlain := all.2
        rw [List.all_cons, Bool.and_eq_true, isPlain, Bool.and_eq_true, Bool.not_eq_true',
          Bool.not_eq_true'] at nextPlain
        exact unindented_cons nextPlain.1.2
    rw [List.cons_append, squeeze_plain all.1 solid, inductionHypothesis all.2]
    rfl

/-- A gap behind a run of plain characters becomes one space if a plain character follows it, and
disappears otherwise. -/
theorem squeeze_run_gap {run gap : List Char} (all : run.all isPlain = true) (nonempty : run ≠ [])
    (isGap : Gap gap) {rest : List Char} (unindented : Unindented rest) :
    squeeze (run ++ (gap ++ rest)) =
      run ++ ((if rest.head?.any isPlain then [' '] else []) ++ squeeze rest) := by
  obtain ⟨first, others, rfl⟩ := List.exists_cons_of_ne_nil nonempty
  rw [squeeze, pieces_append_gap isGap, pieces_run all]
  cases rest with
  | nil => rfl
  | cons next rest =>
    by_cases nextPlain : isPlain next = true
    · obtain ⟨chars, others, same⟩ := pieces_of_plain nextPlain rest
      simp only [List.head?_cons, Option.any_some, nextPlain, if_true, squeeze, same]
      rfl
    · have nextMark : isMark next = true := by
        simpa [isPlain, unindented next rfl] using nextPlain
      simp only [List.head?_cons, Option.any_some, nextPlain, Bool.false_eq_true, if_false,
        squeeze]
      rw [pieces, if_pos nextMark]
      rfl

/-! ### Texts that squeezing leaves as they are -/

/-- What stands between a character and the squeezed text behind it: a space behind a comma, and one
in the place of blanks between two plain characters. -/
def joint (c : Char) (text : List Char) : List Char :=
  if c == ',' || (isPlain c && text.head?.any isBlank &&
    (text.dropWhile isBlank).head?.any isPlain) then [' '] else []

/-- One blank in front is dropped. -/
theorem squeeze_cons_of_isBlank {c : Char} (blank : isBlank c = true) (text : List Char) :
    squeeze (c :: text) = squeeze text := by
  rw [squeeze, pieces_cons_of_isBlank blank]
  rfl

/-- All blanks in front are dropped. -/
theorem squeeze_dropWhile (text : List Char) :
    squeeze (text.dropWhile isBlank) = squeeze text := by
  have blank : Blank (text.takeWhile isBlank) := fun _ member => List.mem_takeWhile_imp member
  have whole := squeeze_blank blank (text.dropWhile isBlank)
  rw [List.takeWhile_append_dropWhile] at whole
  exact whole.symm

/-- A character that is not blank in front of any text. -/
theorem squeeze_solid {c : Char} (solid : isBlank c = false) (text : List Char) :
    squeeze (c :: text) = c :: (joint c text ++ squeeze text) := by
  by_cases mark : isMark c = true
  · have notPlain : isPlain c = false := by rw [isPlain, mark]; rfl
    rw [squeeze_mark mark, joint, notPlain, Bool.false_and, Bool.false_and, Bool.or_false]
  · have plain : isPlain c = true := by simp [isPlain, mark, solid]
    have notComma : (c == ',') = false := by
      refine beq_false_of_ne ?_
      rintro rfl
      exact mark rfl
    rw [joint, notComma, plain, Bool.false_or, Bool.true_and]
    by_cases begins : text.head?.any isBlank = true
    · have split := List.takeWhile_append_dropWhile (p := isBlank) (l := text)
      have isGap : Gap (text.takeWhile isBlank) := by
        refine ⟨fun _ member => List.mem_takeWhile_imp member, ?_⟩
        cases text with
        | nil => contradiction
        | cons d text =>
          have space : isBlank d = true := begins
          rw [List.takeWhile_cons_of_pos space]
          exact List.cons_ne_nil _ _
      have all : [c].all isPlain = true := by rw [List.all_cons, plain]; rfl
      have whole := squeeze_run_gap all (List.cons_ne_nil c []) isGap (head_dropWhile isBlank text)
      rw [split, squeeze_dropWhile] at whole
      rw [begins, Bool.true_and]
      exact whole
    · have unindented : Unindented text := by
        intro d first
        rw [first] at begins
        simpa using begins
      rw [squeeze_plain plain unindented, eq_false_of_ne_true begins]
      rfl

/-- No blank is left at the beginning. -/
theorem unindented_squeeze (text : List Char) : Unindented (squeeze text) := by
  induction text with
  | nil => exact nofun
  | cons c text inductionHypothesis =>
    by_cases blank : isBlank c = true
    · rw [squeeze_cons_of_isBlank blank]
      exact inductionHypothesis
    · rw [squeeze_solid (eq_false_of_ne_true blank)]
      exact unindented_cons (eq_false_of_ne_true blank)

/-- No squeezed text starts with a blank. -/
theorem squeeze_ne_of_isBlank {c : Char} (blank : isBlank c = true) (text rest : List Char) :
    squeeze text ≠ c :: rest := by
  intro same
  have solid := unindented_squeeze text c (by rw [same]; rfl)
  exact absurd (solid.symm.trans blank) Bool.false_ne_true

/-- A plain character at the end stays there. -/
theorem squeeze_append_plain {c : Char} (plain : isPlain c = true) (text : List Char) :
    ∃ front, squeeze (text ++ [c]) = front ++ [c] := by
  induction text with
  | nil =>
    have all : [c].all isPlain = true := by rw [List.all_cons, plain]; rfl
    have nothing : Unindented [] := nofun
    exact ⟨[], squeeze_run all nothing⟩
  | cons d text inductionHypothesis =>
    obtain ⟨front, same⟩ := inductionHypothesis
    rw [List.cons_append]
    by_cases blank : isBlank d = true
    · exact ⟨front, (squeeze_cons_of_isBlank blank _).trans same⟩
    · refine ⟨d :: (joint d (text ++ [c]) ++ front), ?_⟩
      rw [squeeze_solid (eq_false_of_ne_true blank), same, List.cons_append, List.append_assoc]

/-- Behind a character, one space stands behind every comma, and every other blank is one space
between two plain characters. -/
def spacedBehind (before : Char) : List Char → Bool
  | [] => before != ','
  | c :: rest =>
    (if isBlank c then
      c == ' ' && (before == ',' || (isPlain before && rest.head?.any isPlain))
    else before != ',') && spacedBehind c rest

/-- Between two solid characters only a comma has a space behind it. -/
theorem joint_of_solid (c : Char) {d : Char} (solid : isBlank d = false) (rest : List Char) :
    joint c (d :: rest) = if c = ',' then [' '] else [] := by
  simp [joint, solid]

/-- A blank stays when it is one space that stands for itself. -/
theorem joint_append_eq_iff (c : Char) {d : Char} (blank : isBlank d = true) (rest : List Char) :
    joint c (d :: rest) ++ squeeze rest = d :: rest ↔
      d = ' ' ∧ (c = ',' ∨ isPlain c = true ∧ rest.head?.any isPlain = true) ∧
        squeeze rest = rest := by
  -- a rest that stays as it is does not begin with a blank
  have dropped (stays : squeeze rest = rest) : rest.dropWhile isBlank = rest := by
    cases rest with
    | nil => rfl
    | cons e rest =>
      refine List.dropWhile_cons_of_neg fun space => ?_
      exact squeeze_ne_of_isBlank space _ _ stays
  rw [joint, List.head?_cons, Option.any_some, blank, Bool.and_true,
    List.dropWhile_cons_of_pos blank]
  constructor
  · intro same
    split at same
    · next kept =>
      obtain ⟨rfl, stays⟩ := List.cons.inj same
      rw [dropped stays] at kept
      exact ⟨rfl, by simpa using kept, stays⟩
    · exact absurd same (squeeze_ne_of_isBlank blank rest rest)
  · rintro ⟨rfl, kept, stays⟩
    rw [dropped stays, if_pos (by simpa using kept), stays]
    rfl

/-- Squeezing leaves exactly these texts as they are. The induction is on the text, behind a
character that is not blank and behind a space. -/
theorem squeeze_eq_self_iff (text : List Char) :
    (∀ c, isBlank c = false → (squeeze (c :: text) = c :: text ↔ spacedBehind c text = true)) ∧
      (squeeze text = text ↔ spacedBehind ' ' text = true) := by
  induction text with
  | nil =>
    refine ⟨fun c solid => ?_, by decide⟩
    rw [squeeze_solid solid]
    by_cases comma : c = ',' <;> simp [joint, spacedBehind, comma, squeeze, pieces, glue]
  | cons d rest inductionHypothesis =>
    obtain ⟨behindSolid, behindSpace⟩ := inductionHypothesis
    by_cases blank : isBlank d = true
    · refine ⟨fun c solid => ?_, ?_⟩
      · rw [squeeze_solid solid, squeeze_cons_of_isBlank blank, List.cons_inj_right,
          joint_append_eq_iff c blank, behindSpace]
        by_cases space : d = ' '
        · subst space
          simp [spacedBehind, blank]
        · simp [spacedBehind, blank, space]
      · have notPlain : isPlain ' ' = false := by decide
        rw [squeeze_cons_of_isBlank blank]
        simp [spacedBehind, blank, squeeze_ne_of_isBlank blank, notPlain]
    · have solid := eq_false_of_ne_true blank
      have notSpace : d ≠ ' ' := by
        rintro rfl
        exact blank rfl
      refine ⟨fun c cSolid => ?_, ?_⟩
      · rw [squeeze_solid cSolid, joint_of_solid c solid]
        by_cases comma : c = ','
        · simp [spacedBehind, solid, comma, Ne.symm notSpace]
        · simp [spacedBehind, solid, comma, behindSolid d solid]
      · simp [spacedBehind, solid, behindSolid d solid]

end InterfaceAudit.Text
