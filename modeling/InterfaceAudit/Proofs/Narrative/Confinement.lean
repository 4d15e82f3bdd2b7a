import InterfaceAudit.Proofs.Narrative.Section
import InterfaceAudit.Proofs.Table
import InterfaceAudit.Proofs.Text.Pieces

/-!
Confinement of sections.
What is read in a section stands below its heading and above the next heading, and the section that
follows is read as well. Both fail only where a section overruns the next heading.
-/

namespace InterfaceAudit.Narrative

open Text

/-- A line that starts with one of these ends an attribute section. -/
def attributeEnds : List (List Char) := ["## ".toList, "---".toList]

/-- A line that starts with one of these ends a method section. -/
def methodEnds : List (List Char) := ["### ".toList, "## ".toList]

def EndsSection (ends : List (List Char)) (line : List Char) : Prop :=
  ∃ start ∈ ends, start <+: line

/-- A line stands under the heading that a text begins with when no line between them ends the
section, nor does the line. -/
def StandsUnder (ends : List (List Char)) (heading line text : List Char) : Prop :=
  ∃ between back, text = heading ++ '\n' :: (ended between ++ (line ++ back)) ∧
    BehindLine back ∧ ∀ other ∈ between ++ [line], '\n' ∉ other ∧ ¬ EndsSection ends other

/-- A line stands below a heading somewhere in a text. -/
def StandsBelow (ends : List (List Char)) (heading line text : List Char) : Prop :=
  ∃ start, start <:+ text ∧ StandsUnder ends heading line start

/-- A section overruns a heading that its algorithm begins with, or one inside of its signature. -/
def Section.Overruns (found : Section) : Prop :=
  EndsSection methodEnds found.algorithm ∨ ∃ mark ∈ methodMarks, mark <:+: found.signature

/-! ### Ends of sections -/

section Ends

variable {text body rest : List Char} (ends : List (List Char))

/-- A section and the text behind it are the whole text, which goes on with a mark. No mark begins
in the section. -/
theorem splitAtMarks_eq {marks : List (List Char)}
    (split : splitAtMarks marks text = (body, rest)) :
    text = body ++ rest ∧ (rest = [] ∨ ∃ mark ∈ marks, mark <+: rest) ∧
      ∀ front back, body = front ++ back → back ≠ [] →
        ∀ mark ∈ marks, ¬ mark <+: back ++ rest := by
  induction text generalizing body with
  | nil =>
    obtain ⟨rfl, rfl⟩ := Prod.mk.inj split
    refine ⟨rfl, .inl rfl, fun front back parts nonempty => ?_⟩
    exact absurd (List.nil_eq_append_iff.mp parts).2 nonempty
  | cons c text inductionHypothesis =>
    rw [splitAtMarks] at split
    split at split
    · next marked =>
      obtain ⟨rfl, rfl⟩ := Prod.mk.inj split
      obtain ⟨mark, member, isPrefix⟩ := List.any_eq_true.mp marked
      refine ⟨rfl, .inr ⟨mark, member, List.isPrefixOf_iff_prefix.mp isPrefix⟩, ?_⟩
      exact fun front back parts nonempty => absurd (List.nil_eq_append_iff.mp parts).2 nonempty
    · next unmarked =>
      obtain ⟨rfl, rfl⟩ := Prod.mk.inj split
      obtain ⟨whole, goesOn, free⟩ := inductionHypothesis rfl
      refine ⟨congrArg (c :: ·) whole, goesOn, fun front back parts nonempty mark member => ?_⟩
      cases front with
      | nil =>
        rw [List.nil_append] at parts
        rw [← parts, List.cons_append, ← whole]
        intro isPrefix
        apply unmarked
        exact List.any_eq_true.mpr ⟨mark, member, List.isPrefixOf_iff_prefix.mpr isPrefix⟩
      | cons d front => exact free front back (List.cons.inj parts).2 nonempty mark member

/-- A section ends at the end of a line. -/
theorem behindLine_of_splitAtMarks
    (split : splitAtMarks (ends.map ('\n' :: ·)) text = (body, rest)) : BehindLine rest := by
  rcases (splitAtMarks_eq split).2.1 with rfl | ⟨mark, member, behind, rfl⟩
  · simp [BehindLine]
  · obtain ⟨start, -, rfl⟩ := List.mem_map.mp member
    exact behindLine_feed _

/-- Only the first line of a section can be one that ends sections. -/
theorem not_endsSection_of_mem_tail
    (split : splitAtMarks (ends.map ('\n' :: ·)) text = (body, rest)) {line : List Char}
    (later : line ∈ (splitOn '\n' body).tail) : ¬ EndsSection ends line := by
  intro ⟨start, member, isPrefix⟩
  obtain ⟨front, back, parts⟩ := exists_of_mem_tail_splitOn later
  apply (splitAtMarks_eq split).2.2 front _ parts (by simp) ('\n' :: start)
    (List.mem_map_of_mem member)
  rw [List.cons_append, List.append_assoc, List.cons_prefix_cons]
  exact ⟨rfl, isPrefix.trans (List.prefix_append ..)⟩

/-- No line of a section ends it, unless the section begins with one that does. -/
theorem not_endsSection_of_mem (split : splitAtMarks (ends.map ('\n' :: ·)) text = (body, rest))
    (begins : ¬ EndsSection ends body) {line : List Char} (member : line ∈ splitOn '\n' body) :
    ¬ EndsSection ends line := by
  obtain ⟨first, others, lines⟩ := List.exists_cons_of_ne_nil (splitOn_ne_nil '\n' body)
  have later (isLater : line ∈ (splitOn '\n' body).tail) : ¬ EndsSection ends line :=
    not_endsSection_of_mem_tail ends split isLater
  rw [lines] at member later
  rcases List.mem_cons.mp member with rfl | isLater
  · intro ⟨start, isStart, isPrefix⟩
    obtain ⟨-, ⟨-, rfl⟩ | ⟨behind, rfl, -⟩⟩ := splitOn_eq_cons lines
    · exact begins ⟨start, isStart, isPrefix⟩
    · exact begins ⟨start, isStart, isPrefix.trans (List.prefix_append ..)⟩
  · exact later isLater

/-- A line of a section stands under the heading. -/
theorem standsUnder_of_mem (split : splitAtMarks (ends.map ('\n' :: ·)) text = (body, rest))
    (begins : ¬ EndsSection ends body) {line : List Char} (member : line ∈ splitOn '\n' body)
    (heading : List Char) {headLines : List (List Char)}
    (plain : ∀ other ∈ headLines, '\n' ∉ other ∧ ¬ EndsSection ends other) :
    StandsUnder ends heading line (heading ++ '\n' :: (ended headLines ++ (body ++ rest))) := by
  obtain ⟨before, behind, lines⟩ := List.append_of_mem member
  obtain ⟨back, isBody, isBehind⟩ := exists_of_splitOn_eq lines
  refine ⟨headLines ++ before, back ++ rest, ?_, ?_, fun other isOther => ?_⟩
  · rw [isBody, ended_append]
    simp only [List.append_assoc]
  · exact isBehind.append (behindLine_of_splitAtMarks ends split)
  · rw [List.append_assoc, List.mem_append] at isOther
    rcases isOther with inHead | inBody
    · exact plain other inHead
    · have isLine : other ∈ splitOn '\n' body := by
        rw [lines]
        simp only [List.mem_append, List.mem_cons] at inBody ⊢
        tauto
      exact ⟨not_mem_of_mem_splitOn isLine, not_endsSection_of_mem ends split begins isLine⟩

end Ends

/-! ### Sections of a text -/

/-- What is quoted stands between two quotes. -/
theorem backquoted_eq_some {text content rest : List Char}
    (found : backquoted text = some (content, rest)) :
    text = '\x60' :: (content ++ '\x60' :: rest) := by
  simp only [backquoted, Option.bind_eq_bind, Option.bind_eq_some_iff] at found
  obtain ⟨quoted, opened, closed⟩ := found
  rw [afterSpelling_eq_some_iff] at opened
  split at closed
  · contradiction
  · next c behind isBehind _ =>
    obtain ⟨rfl, rfl⟩ := Prod.mk.inj (Option.some.inj closed)
    have stop : c = '\x60' := by
      have notInside := List.head?_dropWhile_not (· != '\x60') quoted
      rw [isBehind] at notInside
      simpa using notInside
    have whole : quoted.takeWhile (· != '\x60') ++ quoted.dropWhile (· != '\x60') = quoted :=
      List.takeWhile_append_dropWhile
    rw [isBehind, stop] at whole
    rw [opened, whole, List.singleton_append]
  · contradiction

def signatureLabel : List Char := "**Signature:** \x60".toList

def signatureLine (signature : List Char) : List Char :=
  signatureLabel ++ (signature ++ ['\x60'])

/-- A line behind the first one starts inside of the part that the line feeds stand in. -/
theorem infix_of_append_eq {front body whole start back : List Char} {last : Char}
    (frontFree : '\n' ∉ front) (startFree : last ∉ '\n' :: start)
    (split : front ++ (body ++ [last]) = whole ++ '\n' :: (start ++ back)) :
    '\n' :: start <:+: body := by
  obtain ⟨before, atBody⟩ : ∃ before, body ++ [last] = before ++ '\n' :: (start ++ back) := by
    rcases List.append_eq_append_iff.mp split with ⟨before, -, parts⟩ | ⟨before, isFront, parts⟩
    · exact ⟨before, parts⟩
    · cases before with
      | nil => exact ⟨[], parts.symm⟩
      | cons c before =>
        obtain ⟨rfl, -⟩ := List.cons.inj parts
        exact absurd (by simp [isFront]) frontFree
  rw [← List.cons_append, ← List.append_assoc] at atBody
  rcases back.eq_nil_or_concat with rfl | ⟨back, c, rfl⟩
  · -- The start would end with the character that it does not have.
    have ends : last ∈ '\n' :: start := by
      rw [List.append_nil] at atBody
      have isSuffix : [last] <:+ '\n' :: start :=
        List.suffix_of_suffix_length_le ⟨body, atBody⟩ (List.suffix_append ..) (by simp)
      exact isSuffix.subset (List.mem_singleton_self last)
    exact absurd ends startFree
  · rw [List.concat_eq_append, ← List.append_assoc] at atBody
    exact ⟨before, back, (List.append_inj_left' atBody rfl).symm⟩

/-- The line of a signature ends a section only where the signature overruns a heading. -/
theorem overruns_of_signatureLine {signature line : List Char}
    (member : line ∈ splitOn '\n' (signatureLine signature)) (ends : EndsSection methodEnds line) :
    ∃ mark ∈ methodMarks, mark <:+: signature := by
  obtain ⟨start, isEnd, starts⟩ := ends
  have plain : ∀ start ∈ methodEnds, '\x60' ∉ '\n' :: start ∧ start.head? = some '#' := by decide
  obtain ⟨quoteFree, sign⟩ := plain start isEnd
  obtain ⟨first, others, lines⟩ :=
    List.exists_cons_of_ne_nil (splitOn_ne_nil '\n' (signature ++ ['\x60']))
  have whole : splitOn '\n' (signatureLine signature) = (signatureLabel ++ first) :: others :=
    splitOn_append_of_not_mem (by decide) lines
  rw [whole] at member
  rcases List.mem_cons.mp member with rfl | later
  · -- The first line begins with the label, and the label with a star.
    obtain ⟨behind, split⟩ := starts
    have star : (start ++ behind).head? = some '*' := by
      rw [split]
      rfl
    rw [List.head?_append, sign, Option.some_or] at star
    exact absurd star (by decide)
  · have inTail : line ∈ (splitOn '\n' (signatureLine signature)).tail := by
      rw [whole]
      exact later
    obtain ⟨front, back, split⟩ := exists_of_mem_tail_splitOn inTail
    obtain ⟨behind, rfl⟩ := starts
    rw [List.append_assoc] at split
    exact ⟨'\n' :: start, List.mem_map_of_mem isEnd,
      infix_of_append_eq (by decide) quoteFree split⟩

def algorithmLabel : List Char := "**Algorithm:**".toList

/-- The lines between a heading and the algorithm. -/
def headLines (marked : Bool) (signature : List Char) : List (List Char) :=
  [] :: ((if marked then [staticMark, []] else []) ++
    (splitOn '\n' (signatureLine signature) ++ [[], algorithmLabel, []]))

/-- The lines of a head are single lines. -/
theorem not_mem_of_mem_headLines {marked : Bool} {signature line : List Char}
    (member : line ∈ headLines marked signature) : '\n' ∉ line := by
  simp only [headLines, List.mem_cons, List.mem_append] at member
  rcases member with rfl | inMark | inSignature | inLabel
  · exact List.not_mem_nil
  · revert line
    cases marked <;> decide
  · exact not_mem_of_mem_splitOn inSignature
  · rcases inLabel with rfl | rfl | rfl | none
    · exact List.not_mem_nil
    · decide
    · exact List.not_mem_nil
    · contradiction

/-- A heading inside the head of a section stands in its signature. -/
theorem overruns_of_mem_headLines {marked : Bool} {signature line : List Char}
    (member : line ∈ headLines marked signature) (ends : EndsSection methodEnds line) :
    ∃ mark ∈ methodMarks, mark <:+: signature := by
  have apart : ∀ start ∈ methodEnds, ∀ other ∈ [[], staticMark, algorithmLabel],
    ¬ start <+: other := by decide
  have harmless : line ∉ [[], staticMark, algorithmLabel] := fun isHarmless => by
    obtain ⟨start, isEnd, isPrefix⟩ := ends
    exact apart start isEnd line isHarmless isPrefix
  simp only [List.mem_cons, List.not_mem_nil, or_false, not_or] at harmless
  obtain ⟨notEmpty, notMark, notLabel⟩ := harmless
  rcases List.mem_cons.mp member with isEmpty | behind
  · exact absurd isEmpty notEmpty
  · rcases List.mem_append.mp behind with inMark | inOthers
    · cases marked <;> simp [notEmpty, notMark] at inMark
    · rcases List.mem_append.mp inOthers with inSignature | inLabel
      · exact overruns_of_signatureLine inSignature ends
      · simp [notEmpty, notLabel] at inLabel

/-- A section has its heading in front of it, and then lines that lead to its algorithm. -/
theorem section?_eq_some {text : List Char} {found : Section}
    (isFound : section? text = some found) :
    (∃ marked, text = "### ".toList ++ found.name ++ '\n' ::
        (ended (headLines marked found.signature) ++ (found.algorithm ++ found.rest))) ∧
      IsName found.name ∧
      splitAtMarks methodMarks (found.algorithm ++ found.rest) = (found.algorithm, found.rest) := by
  simp only [section?, Option.bind_eq_bind, Option.bind_eq_some_iff] at isFound
  obtain ⟨heading, headed, ⟨name, afterName⟩, named, spaced, isSpaced, labelled, isLabelled,
    ⟨signature, afterSignature⟩, quoted, body, isBody, isFound⟩ := isFound
  obtain ⟨isName, rfl⟩ := word_eq_some named
  rw [afterSpelling_eq_some_iff] at headed isSpaced isLabelled isBody
  change afterName = _ at isSpaced
  change afterSignature = _ at isBody
  obtain ⟨algorithm, rest, split⟩ : ∃ algorithm rest,
      splitAtMarks methodMarks body = (algorithm, rest) := ⟨_, _, rfl⟩
  have isSplit : splitAtMarks ["\n### ".toList, "\n## ".toList] body = (algorithm, rest) := split
  rw [isSplit] at isFound
  obtain rfl : ⟨name, signature, algorithm, rest⟩ = found := Option.some.inj isFound
  obtain ⟨rfl, -⟩ := splitAtMarks_eq split
  obtain ⟨marked, isMarked⟩ : ∃ marked : Bool,
      spaced = ended (if marked then [staticMark, []] else []) ++
        ("**Signature:** ".toList ++ labelled) := by
    rw [← isLabelled]
    cases mark : afterSpelling (staticMark ++ "\n\n".toList) spaced with
    | none => exact ⟨false, rfl⟩
    | some rest =>
      rw [afterSpelling_eq_some_iff] at mark
      exact ⟨true, mark⟩
  have labelEnds (behind : List Char) : signatureLine signature ++ '\n' ::
      (ended [[], algorithmLabel, []] ++ behind) =
      "**Signature:** ".toList ++ ('\x60' :: (signature ++ '\x60' ::
        ("\n\n**Algorithm:**\n\n".toList ++ behind))) := by
    rw [signatureLine, List.append_assoc, List.append_assoc]
    rfl
  refine ⟨⟨marked, ?_⟩, isName, split⟩
  rw [headed, isSpaced, isMarked, backquoted_eq_some quoted, isBody, ← labelEnds]
  simp only [headLines, ended_cons, ended_append, ended_splitOn, List.append_assoc,
    List.nil_append, List.cons_append]
  rfl

theorem rest_suffix {text : List Char} {found : Section} (isFound : section? text = some found) :
    found.rest <:+ text ∧ found.rest.length < text.length := by
  obtain ⟨⟨marked, whole⟩, -⟩ := section?_eq_some isFound
  have split : text = "### ".toList ++ found.name ++ '\n' ::
      (ended (headLines marked found.signature) ++ found.algorithm) ++ found.rest := by
    rw [whole]
    simp only [List.append_assoc, List.cons_append]
  refine ⟨⟨_, split.symm⟩, ?_⟩
  rw [split]
  simp only [List.length_append, List.length_cons]
  omega

/-- A section that goes on behind a heading inside of it overruns that heading. -/
theorem overruns_of_inside {text start : List Char} {found : Section}
    (isFound : section? text = some found) {between : List Char}
    (split : text = between ++ '\n' :: start) (headed : EndsSection methodEnds start)
    (inside : found.rest.length < start.length) : found.Overruns := by
  obtain ⟨⟨marked, whole⟩, isName, atMarks⟩ := section?_eq_some isFound
  have restSuffix : found.rest <:+ start :=
    List.suffix_of_suffix_length_le (rest_suffix isFound).1 ⟨between ++ ['\n'], by simp [split]⟩
      (Nat.le_of_lt inside)
  obtain ⟨tail, rfl⟩ := restSuffix
  -- The part in front of the rest has the start of one of its lines where the heading stands.
  have parts : ended (("### ".toList ++ found.name) :: headLines marked found.signature) ++
      found.algorithm = between ++ '\n' :: tail := by
    apply (List.append_left_inj found.rest).mp
    rw [List.append_assoc, List.append_assoc, List.cons_append, ← split, whole, ended_cons]
    simp only [List.append_assoc, List.cons_append]
  have free : ∀ line ∈ ("### ".toList ++ found.name) :: headLines marked found.signature,
      '\n' ∉ line := by
    refine List.forall_mem_cons.mpr ⟨?_, fun line => not_mem_of_mem_headLines⟩
    rw [List.mem_append, not_or]
    exact ⟨by decide, isName.not_mem (by decide)⟩
  have lines := congrArg (splitOn '\n') parts
  rw [splitOn_ended_append free, splitOn_append_mark] at lines
  obtain ⟨isHeading, others, atBetween⟩ :=
    List.exists_cons_of_ne_nil (splitOn_ne_nil '\n' between)
  obtain ⟨line, behind, atTail⟩ := List.exists_cons_of_ne_nil (splitOn_ne_nil '\n' tail)
  rw [atBetween, atTail, List.cons_append, List.cons_append] at lines
  have inLines : line ∈ headLines marked found.signature ++ splitOn '\n' found.algorithm := by
    rw [(List.cons.inj lines).2]
    exact List.mem_append_cons_self
  obtain ⟨heading, isEnd, isPrefix⟩ := headed
  have feedFree : ∀ heading ∈ methodEnds, '\n' ∉ heading := by decide
  have lineEnds : EndsSection methodEnds line :=
    ⟨heading, isEnd, prefix_line (feedFree heading isEnd) atTail
      (behindLine_of_splitAtMarks methodEnds atMarks) isPrefix⟩
  rcases List.mem_append.mp inLines with inHead | inAlgorithm
  · exact .inr (overruns_of_mem_headLines inHead lineEnds)
  · by_contra notOver
    exact not_endsSection_of_mem methodEnds atMarks (fun begins => notOver (.inl begins))
      inAlgorithm lineEnds

/-- Every section is read at its own place of the text. -/
theorem mem_sections {text start : List Char} {found : Section}
    (member : (start, found) ∈ sections text) : start <:+ text ∧ section? start = some found := by
  fun_induction sections text with
  | case1 => contradiction
  | case2 c tail first isFirst shorter inductionHypothesis =>
    rcases List.mem_cons.mp member with here | later
    · obtain ⟨rfl, rfl⟩ := Prod.mk.inj here
      exact ⟨List.suffix_refl _, isFirst⟩
    · obtain ⟨isSuffix, isFound⟩ := inductionHypothesis later
      exact ⟨isSuffix.trans (rest_suffix isFirst).1, isFound⟩
  | case3 => contradiction
  | case4 c tail _ inductionHypothesis =>
    obtain ⟨isSuffix, isFound⟩ := inductionHypothesis member
    exact ⟨isSuffix.trans (List.suffix_cons ..), isFound⟩

/-- A section is found, unless it begins inside of another one. -/
theorem mem_sections_or_inside {text start : List Char} {found : Section}
    (isSuffix : start <:+ text) (isFound : section? start = some found) :
    (start, found) ∈ sections text ∨ ∃ earlier around, (earlier, around) ∈ sections text ∧
      start <:+ earlier ∧ start.length < earlier.length ∧ around.rest.length < start.length := by
  fun_induction sections text with
  | case1 =>
    rw [List.suffix_nil.mp isSuffix] at isFound
    contradiction
  | case2 c tail first isFirst shorter inductionHypothesis =>
    by_cases behind : start.length ≤ first.rest.length
    · have inRest : start <:+ first.rest :=
        List.suffix_of_suffix_length_le isSuffix (rest_suffix isFirst).1 behind
      rcases inductionHypothesis inRest with member | ⟨earlier, around, member, inside⟩
      · exact .inl (.tail _ member)
      · exact .inr ⟨earlier, around, .tail _ member, inside⟩
    · rcases List.suffix_cons_iff.mp isSuffix with rfl | later
      · obtain rfl : first = found := Option.some.inj (isFirst.symm.trans isFound)
        exact .inl List.mem_cons_self
      · have less := later.length_le
        exact .inr ⟨c :: tail, first, List.mem_cons_self, isSuffix, Nat.lt_succ_of_le less,
          Nat.lt_of_not_le behind⟩
  | case3 c tail first isFirst longer => exact absurd (rest_suffix isFirst).2 longer
  | case4 c tail absent inductionHypothesis =>
    rcases List.suffix_cons_iff.mp isSuffix with rfl | later
    · rw [absent] at isFound
      contradiction
    · exact inductionHypothesis later

/-! ### Confinement -/

section Confinement

variable {content : List Char}

/-- A line of the algorithm stands under the heading of its section. -/
theorem standsUnder_of_step {start line : List Char} {found : Section}
    (isFound : section? start = some found) (kept : ¬ found.Overruns)
    (inAlgorithm : line ∈ splitOn '\n' found.algorithm) :
    StandsUnder methodEnds ("### ".toList ++ found.name) line start := by
  obtain ⟨⟨marked, whole⟩, -, atMarks⟩ := section?_eq_some isFound
  obtain ⟨notBegun, notInside⟩ := not_or.mp kept
  rw [whole]
  exact standsUnder_of_mem methodEnds atMarks notBegun inAlgorithm _ fun other inHead =>
    ⟨not_mem_of_mem_headLines inHead, fun ends => notInside (overruns_of_mem_headLines inHead ends)⟩

/-- A section whose heading starts a line is found, unless it begins inside of one that overruns its
heading. -/
theorem mem_sections_or_overruns {start : List Char} {found : Section}
    (atLine : '\n' :: start <:+ '\n' :: content) (isFound : section? start = some found) :
    (start, found) ∈ sections content ∨
      ∃ earlier around, (earlier, around) ∈ sections content ∧ around.Overruns ∧
        start <:+ earlier ∧ around.rest.length < start.length := by
  have inContent : start <:+ content := by
    rcases List.suffix_cons_iff.mp atLine with same | later
    · exact (List.cons.inj same).2 ▸ List.suffix_refl _
    · exact (List.suffix_cons ..).trans later
  rcases mem_sections_or_inside inContent isFound with
    member | ⟨earlier, around, member, inEarlier, behind, inside⟩
  · exact .inl member
  · obtain ⟨earlierSuffix, isAround⟩ := mem_sections member
    have shorter := earlierSuffix.length_le
    have later : '\n' :: start <:+ content := by
      rcases List.suffix_cons_iff.mp atLine with same | later
      · rw [(List.cons.inj same).2] at behind
        omega
      · exact later
    obtain ⟨between, split⟩ : '\n' :: start <:+ earlier :=
      List.suffix_of_suffix_length_le later earlierSuffix behind
    have headed : EndsSection methodEnds start := by
      obtain ⟨⟨marked, whole⟩, -⟩ := section?_eq_some isFound
      refine ⟨"### ".toList, by decide, ?_⟩
      rw [whole, List.append_assoc]
      exact List.prefix_append ..
    exact .inr ⟨earlier, around, member, overruns_of_inside isAround split.symm headed inside,
      inEarlier, inside⟩

/-- The leftmost reading starts somewhere in the text. -/
theorem leftmost_eq_some {Value : Type} {reader : List Char → Option Value} {value : Value}
    (found : leftmost reader content = some value) :
    ∃ front back, content = front ++ back ∧ reader back = some value := by
  induction content with
  | nil => exact ⟨[], [], rfl, found⟩
  | cons c content inductionHypothesis =>
    rw [leftmost] at found
    split at found
    · next isFound => exact ⟨[], c :: content, rfl, isFound.trans found⟩
    · obtain ⟨front, back, rfl, isFound⟩ := inductionHypothesis found
      exact ⟨c :: front, back, rfl, isFound⟩

/-- A listed attribute stands on a line below the heading of the attributes. -/
theorem standsBelow_of_listed {listed : ListedAttribute}
    (kept : ¬ EndsSection attributeEnds (attributeSection content))
    (isListed : listed ∈ listedAttributes content) :
    ∃ line, listedAttribute? line = some listed ∧
      StandsBelow attributeEnds "## Attributes".toList line content := by
  obtain ⟨line, inSection, isBullet⟩ := List.mem_filterMap.mp isListed
  refine ⟨line, isBullet, ?_⟩
  unfold attributeSection at kept inSection
  split at inSection
  · next body isBody =>
    obtain ⟨front, start, rfl, behind⟩ := leftmost_eq_some isBody
    rw [isBody] at kept
    obtain ⟨bullets, rest, split⟩ : ∃ bullets rest,
      splitAtMarks attributeMarks body = (bullets, rest) := ⟨_, _, rfl⟩
    have isBullets : (splitAtMarks ["\n## ".toList, "\n---".toList] body).1 = bullets :=
      congrArg Prod.fst split
    rw [isBullets] at inSection
    change ¬ EndsSection attributeEnds (splitAtMarks _ body).1 at kept
    rw [isBullets] at kept
    have blank : ∀ other ∈ ([[]] : List (List Char)),
        '\n' ∉ other ∧ ¬ EndsSection attributeEnds other := by
      have notEmpty : ∀ start ∈ attributeEnds, ¬ start <+: [] := by decide
      exact List.forall_mem_singleton.mpr
        ⟨List.not_mem_nil, fun ⟨start, isEnd, isPrefix⟩ => notEmpty start isEnd isPrefix⟩
    have below := standsUnder_of_mem attributeEnds split kept inSection "## Attributes".toList blank
    rw [← (splitAtMarks_eq split).1] at below
    refine ⟨start, List.suffix_append .., ?_⟩
    rw [afterSpelling_eq_some_iff.mp behind]
    exact below
  · obtain rfl := List.mem_singleton.mp inSection
    contradiction

end Confinement

/-- A section is recorded under its name, and a repeated name keeps the last one. -/
theorem methods_read (lookahead : Int) (text : List Char) :
    (read lookahead text).methods = Table.ofEntries ((sections (joinReturns text)).map
      fun (start, found) => (String.ofList found.name,
        algorithmOf (joinReturns text).length lookahead start found)) := by
  rw [Table.ofEntries, List.foldl_map]
  rfl

/-- A repeated name is recorded from its last section. -/
theorem exists_last_section {lookahead : Int} {text : List Char} {name : String}
    {algorithm : Algorithm} (recorded : (read lookahead text).methods.get? name = some algorithm) :
    ∃ before start found after,
      sections (joinReturns text) = before ++ (start, found) :: after ∧
      String.ofList found.name = name ∧
      (∀ later ∈ after, String.ofList later.2.name ≠ name) ∧
      algorithm = algorithmOf (joinReturns text).length lookahead start found := by
  rw [methods_read, Table.get?_ofEntries, ← List.map_reverse, List.find?_map, Option.map_map,
    Option.map_eq_some_iff] at recorded
  obtain ⟨⟨start, found⟩, isLast, rfl⟩ := recorded
  obtain ⟨sameName, after, before, reversed, others⟩ := List.find?_eq_some_iff_append.mp isLast
  refine ⟨before.reverse, start, found, after.reverse, ?_, by simpa using sameName, ?_, rfl⟩
  · rw [← List.reverse_reverse (sections (joinReturns text)), reversed]
    simp
  · intro later member
    simpa using others later (List.mem_reverse.mp member)

/-- The algorithm of a method is that of its last section, and its steps stand under the heading of
this very section unless the section overruns the next heading. A section is read whatever stands in
front of it, except where an earlier section overruns its heading. The listed attributes stand below
their heading unless their section begins with a line that ends it. -/
theorem read_confined (lookahead : Int) (text : List Char) :
    let content := joinReturns text
    let narrative := read lookahead text
    (∀ name algorithm, narrative.methods.get? name = some algorithm →
      ∃ before start found after, sections content = before ++ (start, found) :: after ∧
        String.ofList found.name = name ∧
        (∀ later ∈ after, String.ofList later.2.name ≠ name) ∧
        algorithm = algorithmOf content.length lookahead start found ∧
        start <:+ content ∧
        (¬ found.Overruns → ∀ step ∈ algorithm.steps, ∃ line, step? line = some step.toList ∧
          StandsUnder methodEnds ("### ".toList ++ found.name) line start)) ∧
    (∀ start found, '\n' :: start <:+ '\n' :: content → section? start = some found →
      ((start, found) ∈ sections content ∧
          narrative.methods.contains (String.ofList found.name) = true) ∨
        ∃ earlier around, (earlier, around) ∈ sections content ∧ around.Overruns ∧
          start <:+ earlier ∧ around.rest.length < start.length) ∧
    (¬ EndsSection attributeEnds (attributeSection content) →
      ∀ listed ∈ narrative.attributes, ∃ line, listedAttribute? line = some listed ∧
        StandsBelow attributeEnds "## Attributes".toList line content) := by
  intro content narrative
  refine ⟨fun name algorithm recorded => ?_, fun start found atLine isFound => ?_,
    fun kept listed => standsBelow_of_listed kept⟩
  · obtain ⟨before, start, found, after, split, sameName, others, rfl⟩ :=
      exists_last_section recorded
    have member : (start, found) ∈ sections content := by
      rw [split]
      exact List.mem_append_cons_self
    obtain ⟨isSuffix, isFound⟩ := mem_sections member
    refine ⟨before, start, found, after, split, sameName, others, rfl, isSuffix,
      fun kept step isStep => ?_⟩
    obtain ⟨line, inAlgorithm, isRead⟩ := List.mem_filterMap.mp isStep
    obtain ⟨text, isText, rfl⟩ := Option.map_eq_some_iff.mp isRead
    exact ⟨line, by rw [isText, String.toList_ofList],
      standsUnder_of_step isFound kept inAlgorithm⟩
  · rcases mem_sections_or_overruns atLine isFound with member | inside
    · refine .inl ⟨member, ?_⟩
      show (read lookahead text).methods.contains _ = true
      rw [Table.contains, methods_read, Table.names_ofEntries, List.contains_iff_mem,
        List.mem_eraseDups, List.map_map]
      exact List.mem_map_of_mem member
    · exact .inr inside

/-- A method without steps. -/
def emptyAlgorithm : List Char :=
  ended ["### close".toList, [], "**Signature:** \x60close()\x60".toList, [],
    "**Algorithm:**".toList, []]

def resetMethod : List Char :=
  ended ["### reset".toList, [], "**Signature:** \x60reset()\x60".toList, [],
    "**Algorithm:**".toList, [], "1. Reset.".toList]

def bulletList : List Char :=
  ended ["## Attributes".toList, [], "- **size** (\x60long\x60)".toList, []]

/-- Below a section without steps the next method is listed, and both are found. -/
theorem read_confined_reset :
    let content := bulletList ++ emptyAlgorithm ++ '\n' :: resetMethod
    let narrative := read defaultLookahead content
    (∃ line, step? line = some "Reset.".toList ∧
      StandsBelow methodEnds "### reset".toList line content) ∧
    narrative.methods.contains "reset" = true ∧
    (∃ line, listedAttribute? line = some ⟨"size", "long", false⟩ ∧
      StandsBelow attributeEnds "## Attributes".toList line content) := by
  intro content narrative
  obtain ⟨steps, headings, bullets⟩ := read_confined defaultLookahead content
  have joined : joinReturns content = content := by decide +kernel
  rw [joined] at steps headings bullets
  have kept : ∀ entry ∈ sections content, ¬ entry.2.Overruns := by
    unfold Section.Overruns EndsSection
    decide +kernel
  refine ⟨?_, ?_, ?_⟩
  · obtain ⟨before, start, found, after, split, isName, -, -, isSuffix, confined⟩ := steps "reset"
      ⟨"reset()", false, ["Reset."]⟩ (by decide +kernel)
    have member : (start, found) ∈ sections content := by
      rw [split]
      exact List.mem_append_cons_self
    have heading : found.name = "reset".toList := by
      rw [← isName, String.toList_ofList]
    obtain ⟨line, isRead, under⟩ := confined (kept _ member) "Reset." List.mem_cons_self
    rw [heading] at under
    exact ⟨line, isRead, start, isSuffix, under⟩
  · obtain ⟨found, isFound⟩ := Option.isSome_iff_exists.mp
      (show (section? resetMethod).isSome by decide +kernel)
    have heading : (section? resetMethod).map (fun found => String.ofList found.name) =
      some "reset" := by decide +kernel
    rw [isFound, Option.map_some, Option.some_inj] at heading
    rcases headings resetMethod found (by decide +kernel) isFound with
      ⟨-, recorded⟩ | ⟨earlier, around, member, overruns, -⟩
    · rw [heading] at recorded
      exact recorded
    · exact absurd overruns (kept _ member)
  · apply bullets
    · unfold EndsSection
      decide +kernel
    · decide +kernel

-- Without an empty line between the methods the first section overruns the heading of the second
-- one, and takes its steps.
example :
    (read defaultLookahead (emptyAlgorithm ++ resetMethod)).methods.entries =
      [("close", ⟨"close()", false, ["Reset."]⟩)] := by
  decide +kernel

end InterfaceAudit.Narrative
