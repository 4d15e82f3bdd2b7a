import InterfaceAudit.Narrative
import InterfaceAudit.Proofs.Text.Blank
import InterfaceAudit.Proofs.Text.Mark

/-!
Sections of a narrative.
A section begins at a heading, and a heading is the end of a line. It ends at a mark, and a mark is
the start of a line. So what stands inside of a line neither opens nor closes a section.
-/

namespace InterfaceAudit.Narrative

open Text

structure IsName (name : List Char) : Prop where
  nonempty : name ≠ []
  isWord : ∀ c ∈ name, isWord c = true

instance (name : List Char) : Decidable (IsName name) :=
  decidable_of_iff (name ≠ [] ∧ name.all isWord = true)
    ⟨fun ⟨nonempty, words⟩ => ⟨nonempty, List.all_eq_true.mp words⟩,
      fun ⟨nonempty, words⟩ => ⟨nonempty, List.all_eq_true.mpr words⟩⟩

/-- A name holds word characters only. -/
theorem IsName.not_mem {name : List Char} (isName : IsName name) {c : Char}
    (apart : Text.isWord c = false) : c ∉ name := fun member => by
  rw [isName.isWord c member] at apart
  contradiction

/-- A word ends at the first other character. -/
theorem word_append {name : List Char} (isName : IsName name) {c : Char}
    (stop : isWord c = false) (rest : List Char) :
    word (name ++ c :: rest) = some (name, c :: rest) := by
  obtain ⟨taken, left⟩ := run_append isName.isWord stop rest
  rw [word, taken, left]
  split
  · exact absurd rfl isName.nonempty
  · rfl

/-- A word that is read is a name. -/
theorem word_eq_some {text name rest : List Char} (found : word text = some (name, rest)) :
    IsName name ∧ text = name ++ rest := by
  unfold word at found
  split at found
  · contradiction
  · next nonempty =>
    obtain ⟨rfl, rfl⟩ := Prod.mk.inj (Option.some.inj found)
    exact ⟨⟨nonempty, fun c member => List.mem_takeWhile_imp member⟩,
      List.takeWhile_append_dropWhile.symm⟩

/-- A quotation without quotes inside ends at its second quote. -/
theorem backquoted_append {content : List Char} (nonempty : content ≠ [])
    (free : '\x60' ∉ content) (rest : List Char) :
    backquoted ('\x60' :: (content ++ '\x60' :: rest)) = some (content, rest) := by
  have inside : ∀ c ∈ content, (c != '\x60') = true := fun c member => by
    simpa using ne_of_mem_of_not_mem member free
  have opened : afterSpelling ['\x60'] ('\x60' :: (content ++ '\x60' :: rest)) =
      some (content ++ '\x60' :: rest) := afterSpelling_append ['\x60'] _
  obtain ⟨taken, left⟩ := run_append inside (c := '\x60') (by decide) rest
  cases content with
  | nil => contradiction
  | cons c content => simp only [backquoted, opened, taken, left, Option.bind_eq_bind, Option.bind]

/-! ### Ends of sections -/

/-- An attribute section ends at these marks. -/
def attributeMarks : List (List Char) := ["\n## ".toList, "\n---".toList]

/-- A method section ends at these marks. -/
def methodMarks : List (List Char) := ["\n### ".toList, "\n## ".toList]

section Ends

variable {marks : List (List Char)}

/-- No mark begins at the line feed in front of a line. -/
def Unopened (marks : List (List Char)) (line : List Char) : Prop :=
  ∀ rest, (marks.any fun mark => mark.isPrefixOf ('\n' :: (line ++ '\n' :: rest))) = false

/-- A section does not end inside of a line. -/
theorem splitAtMarks_append (feeds : ∀ mark ∈ marks, mark.head? = some '\n') {piece : List Char}
    (free : '\n' ∉ piece) (rest : List Char) :
    splitAtMarks marks (piece ++ rest) =
      (piece ++ (splitAtMarks marks rest).1, (splitAtMarks marks rest).2) := by
  induction piece with
  | nil => rfl
  | cons c piece inductionHypothesis =>
    obtain ⟨different, others⟩ := not_or.mp (List.mem_cons.not.mp free)
    have unmarked : (marks.any fun mark => mark.isPrefixOf (c :: (piece ++ rest))) = false := by
      rw [List.any_eq_false]
      intro mark member
      obtain ⟨behind, rfl⟩ := List.head?_eq_some_iff.mp (feeds mark member)
      simp [different]
    rw [List.cons_append, splitAtMarks, unmarked, inductionHypothesis others]
    rfl

/-- A line feed that starts no mark belongs to the section. -/
theorem splitAtMarks_feed {rest : List Char}
    (unmarked : (marks.any fun mark => mark.isPrefixOf ('\n' :: rest)) = false) :
    splitAtMarks marks ('\n' :: rest) =
      ('\n' :: (splitAtMarks marks rest).1, (splitAtMarks marks rest).2) := by
  rw [splitAtMarks, unmarked]
  rfl

/-- A mark ends the section in front of it. -/
theorem splitAtMarks_mark {mark : List Char} (member : mark ∈ marks)
    (feeds : mark.head? = some '\n') (rest : List Char) :
    splitAtMarks marks (mark ++ rest) = ([], mark ++ rest) := by
  obtain ⟨behind, rfl⟩ := List.head?_eq_some_iff.mp feeds
  have marked : (marks.any fun mark => mark.isPrefixOf ('\n' :: (behind ++ rest))) = true :=
    List.any_eq_true.mpr ⟨_, member, List.isPrefixOf_iff_prefix.mpr (List.prefix_append ..)⟩
  rw [List.cons_append, splitAtMarks, marked]
  rfl

/-- Lines that no mark opens belong to the section, and so does an empty line behind them. -/
theorem splitAtMarks_ended (feeds : ∀ mark ∈ marks, mark.head? = some '\n')
    (blank : Unopened marks []) {lines : List (List Char)} (free : ∀ line ∈ lines, '\n' ∉ line)
    (unopened : ∀ line ∈ lines, Unopened marks line) (rest : List Char) :
    splitAtMarks marks (ended lines ++ '\n' :: rest) =
      (ended lines ++ (splitAtMarks marks ('\n' :: rest)).1,
        (splitAtMarks marks ('\n' :: rest)).2) := by
  induction lines with
  | nil => rfl
  | cons line lines inductionHypothesis =>
    obtain ⟨lineFree, othersFree⟩ := List.forall_mem_cons.mp free
    obtain ⟨-, others⟩ := List.forall_mem_cons.mp unopened
    -- The line feed of the first line is no mark, whatever line follows it.
    have unmarked : (marks.any fun mark =>
        mark.isPrefixOf ('\n' :: (ended lines ++ '\n' :: rest))) = false := by
      cases lines with
      | nil => exact blank rest
      | cons next lines =>
        rw [ended_cons, List.append_assoc]
        exact others next List.mem_cons_self _
    rw [ended_cons, List.append_assoc, List.cons_append, splitAtMarks_append feeds lineFree,
      splitAtMarks_feed unmarked, inductionHypothesis othersFree others, List.append_assoc,
      List.cons_append]

end Ends

/-! ### Starts of sections -/

/-- What can be read at the start is read there. -/
theorem leftmost_of_some {Value : Type} {reader : List Char → Option Value} {text : List Char}
    {value : Value} (found : reader text = some value) : leftmost reader text = some value := by
  cases text with
  | nil => exact found
  | cons c rest => rw [leftmost, found]

/-- The heading of a method stands at the end of a line. -/
def EndsWithHeading (line : List Char) : Prop :=
  ∃ name, IsName name ∧ "### ".toList ++ name <:+ line

/-- A name ends with a word character, so no other character ends a heading. -/
theorem not_endsWithHeading {line : List Char} {c : Char} (last : [c] <:+ line)
    (notWord : isWord c = false) : ¬ EndsWithHeading line := by
  rintro ⟨name, isName, heading⟩
  have nameLast : name <:+ line := (List.suffix_append ..).trans heading
  have inName : [c] <:+ name :=
    List.suffix_of_suffix_length_le last nameLast (List.length_pos_iff.mpr isName.nonempty)
  exact isName.not_mem notWord (inName.subset (List.mem_singleton_self c))

/-- A line with less than three number signs does not end with a heading. -/
theorem not_endsWithHeading_of_count {line : List Char} (few : line.count '#' < 3) :
    ¬ EndsWithHeading line := by
  rintro ⟨name, -, heading⟩
  have bounded := heading.sublist.count_le '#'
  have signs : "### ".toList.count '#' = 3 := by decide
  rw [List.count_append, signs] at bounded
  omega

/-- A section starts with its heading and the name in it. -/
theorem section?_starts {text : List Char} {found : Section}
    (isFound : section? text = some found) :
    ∃ name rest, IsName name ∧ text = ("### ".toList ++ name) ++ '\n' :: rest := by
  simp only [section?, Option.bind_eq_bind, Option.bind_eq_some_iff] at isFound
  obtain ⟨heading, headed, ⟨name, behind⟩, named, rest, spaced, -⟩ := isFound
  obtain ⟨isName, rfl⟩ := word_eq_some named
  rw [afterSpelling_eq_some_iff] at headed spaced
  subst headed spaced
  exact ⟨name, '\n' :: rest, isName, by rw [List.append_assoc]; rfl⟩

/-- A section that begins in a line has its whole heading there. -/
theorem section?_eq_none {line : List Char} (free : '\n' ∉ line)
    (noHeading : ¬ EndsWithHeading line) (rest : List Char) :
    (section? (line ++ '\n' :: rest)) = none := by
  rw [Option.eq_none_iff_forall_ne_some]
  intro found isFound
  obtain ⟨name, behind, isName, split⟩ := section?_starts isFound
  have headingFree : '\n' ∉ "### ".toList ++ name := by
    rw [List.mem_append, not_or]
    exact ⟨by decide, isName.not_mem (by decide)⟩
  obtain ⟨rfl, -⟩ := append_firstMark_inj free headingFree split
  exact noHeading ⟨name, isName, List.suffix_refl _⟩

/-- A line that does not end with a heading is passed. -/
theorem sections_line {line : List Char} (free : '\n' ∉ line)
    (noHeading : ¬ EndsWithHeading line) (rest : List Char) :
    sections (line ++ '\n' :: rest) = sections rest := by
  -- A heading could begin anywhere in the line, so the induction drops one character at a time.
  induction line with
  | nil =>
    have absent : section? ('\n' :: rest) = none := section?_eq_none free noHeading rest
    rw [List.nil_append, sections, absent]
  | cons c line inductionHypothesis =>
    have absent := section?_eq_none free noHeading rest
    rw [List.cons_append] at absent ⊢
    rw [sections, absent]
    refine inductionHypothesis (fun member => free (.tail _ member)) ?_
    rintro ⟨name, isName, suffix⟩
    exact noHeading ⟨name, isName, suffix.trans (List.suffix_cons ..)⟩

/-- Lines without a heading at their end are no part of any method. -/
theorem sections_ended {lines : List (List Char)} (free : ∀ line ∈ lines, '\n' ∉ line)
    (noHeading : ∀ line ∈ lines, ¬ EndsWithHeading line) (rest : List Char) :
    sections (ended lines ++ rest) = sections rest := by
  induction lines with
  | nil => rfl
  | cons line lines inductionHypothesis =>
    obtain ⟨lineFree, othersFree⟩ := List.forall_mem_cons.mp free
    obtain ⟨lineNone, othersNone⟩ := List.forall_mem_cons.mp noHeading
    rw [ended_cons, List.append_assoc, List.cons_append, sections_line lineFree lineNone,
      inductionHypothesis othersFree othersNone]

/-- A section is listed, and the others start where it ends. -/
theorem sections_of_section {text : List Char} {found : Section}
    (isFound : section? text = some found) (shorter : found.rest.length < text.length) :
    sections text = (text, found) :: sections found.rest := by
  cases text with
  | nil => contradiction
  | cons c text => rw [sections, isFound]; simp only [shorter, if_true]

end InterfaceAudit.Narrative
