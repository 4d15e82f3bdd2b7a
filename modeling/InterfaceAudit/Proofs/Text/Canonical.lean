import InterfaceAudit.Proofs.Text.Spacing

/-!
Canonical spellings.
Squeezing is three passes over the whole text in one: the words are joined with single spaces, the
blanks beside brackets go, and one space is put behind every comma. Squeezing again changes nothing,
only blanks are lost or added, and blanks beside a mark do not count.
-/

namespace InterfaceAudit.Text

/-! ### Passes -/

/-- The longest runs of characters without blanks. -/
def solidRuns (text : List Char) : List (List Char) :=
  (text.splitOnP isBlank).filter fun run => !run.isEmpty

def singleSpaced (text : List Char) : List Char := [' '].intercalate (solidRuns text)

/-- A point with the blanks on both of its sides, and the text behind them. -/
def afterPoint? (isPoint : Char → Bool) (text : List Char) : Option (Char × List Char) :=
  match skipBlanks text with
  | c :: rest => if isPoint c then some (c, skipBlanks rest) else none
  | [] => none

theorem length_skipBlanks_le (text : List Char) : (skipBlanks text).length ≤ text.length :=
  (List.dropWhile_sublist isBlank).length_le

/-- A point is passed with the blanks around it. -/
theorem afterPoint?_length {isPoint : Char → Bool} {text rest : List Char} {c : Char}
    (found : afterPoint? isPoint text = some (c, rest)) : rest.length < text.length := by
  have whole := length_skipBlanks_le text
  unfold afterPoint? at found
  split at found <;> try contradiction
  next d behind split =>
    split at found <;> try contradiction
    obtain ⟨rfl, rfl⟩ := Prod.mk.inj (Option.some.inj found)
    have shorter := length_skipBlanks_le behind
    rw [split, List.length_cons] at whole
    omega

/-- Every point gives way to its image, from left to right, with the blanks on both sides. -/
def replacePoints (isPoint : Char → Bool) (image : Char → List Char) : List Char → List Char
  | [] => []
  | c :: text =>
    match _ : afterPoint? isPoint (c :: text) with
    | some (point, rest) => image point ++ replacePoints isPoint image rest
    | none => c :: replacePoints isPoint image text
termination_by text => text.length
decreasing_by
  · exact afterPoint?_length ‹_›
  · exact Nat.lt_succ_self _

def isBracket (c : Char) : Bool := isMark c && c != ','

/-- Brackets stand without blanks beside them. -/
def withTightBrackets (text : List Char) : List Char :=
  replacePoints isBracket (fun c => [c]) text

/-- A comma stands without blanks before it and with one space behind it. -/
def withSpacedCommas (text : List Char) : List Char :=
  replacePoints (· == ',') (fun c => [c, ' ']) text

/-! ### Single spaces -/

theorem skipBlanks_of_unindented {text : List Char} (unindented : Unindented text) :
    skipBlanks text = text :=
  skipBlanks_eq_iff.mpr ⟨unindented, [], nofun, rfl⟩

theorem skipBlanks_cons {c : Char} (blank : isBlank c = true) (text : List Char) :
    skipBlanks (c :: text) = skipBlanks text :=
  List.dropWhile_cons_of_pos blank

theorem ne_nil_of_mem_solidRuns {text run : List Char} (member : run ∈ solidRuns text) :
    run ≠ [] := by
  simpa using (List.mem_filter.mp member).2

/-- A blank in front adds no run. -/
theorem solidRuns_blank {c : Char} (blank : isBlank c = true) (text : List Char) :
    solidRuns (c :: text) = solidRuns text := by
  rw [solidRuns, List.splitOnP_cons_eq_if_modifyHead, if_pos blank]
  rfl

/-- A character in front of a gap is a run of its own. -/
theorem solidRuns_gap {c d : Char} (solid : isBlank c = false) (blank : isBlank d = true)
    (text : List Char) : solidRuns (c :: d :: text) = [c] :: solidRuns text := by
  simp [solidRuns, List.splitOnP_cons_eq_if_modifyHead, solid, blank]

/-- A character in front of another one joins its run. -/
theorem solidRuns_solid {c d : Char} (solid : isBlank c = false) (nextSolid : isBlank d = false)
    (text : List Char) :
    ∃ run runs, solidRuns (d :: text) = run :: runs ∧
      solidRuns (c :: d :: text) = (c :: run) :: runs := by
  obtain ⟨run, runs, split⟩ := List.exists_cons_of_ne_nil (List.splitOnP_ne_nil isBlank text)
  refine ⟨d :: run, runs.filter fun run => !run.isEmpty, ?_, ?_⟩ <;>
    simp [solidRuns, List.splitOnP_cons_eq_if_modifyHead, solid, nextSolid, split]

/-- A character joins the first run. -/
theorem intercalate_cons_cons (c : Char) (run : List Char) (runs : List (List Char)) :
    [' '].intercalate ((c :: run) :: runs) = c :: [' '].intercalate (run :: runs) := by
  cases runs with
  | nil => simp
  | cons next runs => simp [List.intercalate_cons_cons]

theorem singleSpaced_blank {c : Char} (blank : isBlank c = true) (text : List Char) :
    singleSpaced (c :: text) = singleSpaced text :=
  congrArg [' '].intercalate (solidRuns_blank blank text)

/-- One space, or none. -/
def spaceIf (present : Bool) : List Char := if present then [' '] else []

/-- Behind a character a gap becomes one space, unless the text ends with it. -/
theorem singleSpaced_solid {c : Char} (solid : isBlank c = false) (text : List Char) :
    singleSpaced (c :: text) =
      c :: (spaceIf (text.head?.any isBlank && (singleSpaced text).head?.isSome) ++
        singleSpaced text) := by
  cases text with
  | nil => simp [singleSpaced, solidRuns, List.splitOnP_cons_eq_if_modifyHead, solid, spaceIf]
  | cons d text =>
    by_cases blank : isBlank d = true
    · rw [singleSpaced, solidRuns_gap solid blank, singleSpaced, solidRuns_blank blank]
      cases runs_eq : solidRuns text with
      | nil => simp [blank, spaceIf]
      | cons run runs =>
        have member : run ∈ solidRuns text := by rw [runs_eq]; exact List.mem_cons_self
        obtain ⟨e, run, rfl⟩ := List.exists_cons_of_ne_nil (ne_nil_of_mem_solidRuns member)
        rw [List.intercalate_cons_cons, intercalate_cons_cons]
        simp [blank, spaceIf]
    · have nextSolid := eq_false_of_ne_true blank
      obtain ⟨run, runs, next, whole⟩ := solidRuns_solid solid nextSolid text
      rw [singleSpaced, whole, intercalate_cons_cons, singleSpaced, next]
      simp [nextSolid, spaceIf]

/-- The first character that is not blank comes first. -/
theorem head?_singleSpaced (text : List Char) :
    (singleSpaced text).head? = (skipBlanks text).head? := by
  induction text with
  | nil => rfl
  | cons c text inductionHypothesis =>
    by_cases blank : isBlank c = true
    · rw [singleSpaced_blank blank, skipBlanks_cons blank, inductionHypothesis]
    · have solid := eq_false_of_ne_true blank
      rw [singleSpaced_solid solid, skipBlanks_of_unindented (unindented_cons solid)]
      rfl

/-- A single-spaced text starts solid. -/
theorem unindented_singleSpaced (text : List Char) : Unindented (singleSpaced text) := by
  intro c first
  rw [head?_singleSpaced] at first
  exact head_dropWhile isBlank text c first

/-! ### Points -/

section Points

variable {isPoint : Char → Bool} {image : Char → List Char} {c : Char} {text : List Char}

/-- A point is replaced, and the blanks around it go. -/
theorem replacePoints_of_some {point : Char} {rest : List Char}
    (found : afterPoint? isPoint (c :: text) = some (point, rest)) :
    replacePoints isPoint image (c :: text) = image point ++ replacePoints isPoint image rest := by
  rw [replacePoints]
  split <;> simp_all

/-- Any other character is kept. -/
theorem replacePoints_of_none (missing : afterPoint? isPoint (c :: text) = none) :
    replacePoints isPoint image (c :: text) = c :: replacePoints isPoint image text := by
  rw [replacePoints]
  split <;> simp_all

theorem afterPoint?_solid (solid : isBlank c = false) :
    afterPoint? isPoint (c :: text) = if isPoint c then some (c, skipBlanks text) else none := by
  rw [afterPoint?, skipBlanks_of_unindented (unindented_cons solid)]

/-- A point drops the blanks behind it. -/
theorem replacePoints_point (solid : isBlank c = false) (point : isPoint c = true) :
    replacePoints isPoint image (c :: text) =
      image c ++ replacePoints isPoint image (skipBlanks text) :=
  replacePoints_of_some ((afterPoint?_solid solid).trans (if_pos point))

theorem replacePoints_other (solid : isBlank c = false) (other : isPoint c = false) :
    replacePoints isPoint image (c :: text) = c :: replacePoints isPoint image text :=
  replacePoints_of_none ((afterPoint?_solid solid).trans (if_neg (by simp [other])))

/-- A space that was put in front is skipped again. -/
theorem skipBlanks_spaceIf (present : Bool) (unindented : Unindented text) :
    skipBlanks (spaceIf present ++ text) = text := by
  cases present with
  | false => exact skipBlanks_of_unindented unindented
  | true => exact (skipBlanks_cons (by decide) text).trans (skipBlanks_of_unindented unindented)

/-- A space stays, unless a point follows it. -/
theorem replacePoints_spaceIf (present : Bool) (unindented : Unindented text) :
    replacePoints isPoint image (spaceIf present ++ text) =
      spaceIf (present && !text.head?.any isPoint) ++ replacePoints isPoint image text := by
  cases present with
  | false => rfl
  | true =>
    have skipped : skipBlanks (' ' :: text) = skipBlanks text := skipBlanks_cons (by decide) text
    have same : afterPoint? isPoint (' ' :: text) = afterPoint? isPoint text := by
      rw [afterPoint?, skipped, afterPoint?]
    change replacePoints isPoint image (' ' :: text) = _
    cases text with
    | nil => exact replacePoints_of_none same
    | cons c text =>
      have solid := unindented c rfl
      rw [afterPoint?_solid solid] at same
      by_cases point : isPoint c = true
      · rw [if_pos point] at same
        rw [replacePoints_of_some same, replacePoints_point solid point]
        simp [spaceIf, point]
      · rw [if_neg point] at same
        rw [replacePoints_of_none same]
        simp [spaceIf, point]

/-- Replacing points keeps the first character. -/
theorem head?_replacePoints (keeps : ∀ c, (image c).head? = some c) (unindented : Unindented text) :
    (replacePoints isPoint image text).head? = text.head? := by
  cases text with
  | nil => simp [replacePoints]
  | cons c text =>
    have solid := unindented c rfl
    by_cases point : isPoint c = true
    · rw [replacePoints_point solid point, List.head?_append, keeps]
      rfl
    · rw [replacePoints_other solid (eq_false_of_ne_true point)]
      rfl

end Points

theorem isPlain_of_solid {c : Char} (solid : isBlank c = false) : isPlain c = !isMark c := by
  rw [isPlain, solid]
  exact Bool.and_true _

/-- Marks are brackets and commas. -/
theorem isMark_eq (c : Char) : isMark c = (isBracket c || c == ',') := by
  by_cases comma : c = ','
  · subst comma
    decide
  · simp [isBracket, bne, beq_false_of_ne comma]

/-- Both passes keep the first character, and decide whether the space behind it stays. -/
theorem passes_solid {c : Char} (solid : isBlank c = false) (present : Bool) {text : List Char}
    (unindented : Unindented text) :
    withSpacedCommas (withTightBrackets (c :: (spaceIf present ++ text))) =
      c :: (spaceIf (c == ',' || (isPlain c && (present && !text.head?.any isMark))) ++
        withSpacedCommas (withTightBrackets text)) := by
  have first : (withTightBrackets text).head? = text.head? :=
    head?_replacePoints (fun c => rfl) unindented
  have stillUnindented : Unindented (withTightBrackets text) := by
    rw [Unindented, first]
    exact unindented
  unfold withTightBrackets withSpacedCommas at *
  by_cases comma : c = ','
  · subst comma
    rw [replacePoints_other solid (by decide), replacePoints_spaceIf _ unindented,
      replacePoints_point solid rfl, skipBlanks_spaceIf _ stillUnindented]
    rfl
  · have notComma : (c == ',') = false := beq_false_of_ne comma
    by_cases bracket : isBracket c = true
    · have notPlain : isPlain c = false := by simp [isPlain_of_solid solid, isMark_eq, bracket]
      rw [replacePoints_point solid bracket, skipBlanks_spaceIf _ unindented,
        List.singleton_append, replacePoints_other solid notComma, notComma, notPlain]
      rfl
    · have plain : isPlain c = true := by
        simp [isPlain_of_solid solid, isMark_eq, bracket, comma]
      have stays : (present && !text.head?.any isMark) =
          (present && !text.head?.any isBracket && !text.head?.any (· == ',')) := by
        cases text.head? <;> simp [isMark_eq, Bool.and_assoc]
      rw [replacePoints_other solid (eq_false_of_ne_true bracket),
        replacePoints_spaceIf _ unindented, replacePoints_other solid notComma,
        replacePoints_spaceIf _ stillUnindented, first, notComma, plain, stays]
      rfl

/-- The three passes, one behind the other, squeeze a text. -/
theorem squeeze_eq_passes (text : List Char) :
    squeeze text = withSpacedCommas (withTightBrackets (singleSpaced text)) := by
  induction text with
  | nil => simp [squeeze, pieces, glue, singleSpaced, solidRuns, withTightBrackets,
      withSpacedCommas, replacePoints]
  | cons c text inductionHypothesis =>
    by_cases blank : isBlank c = true
    · rw [squeeze_cons_of_isBlank blank, singleSpaced_blank blank, inductionHypothesis]
    · have solid := eq_false_of_ne_true blank
      have next : (text.dropWhile isBlank).head?.any isPlain =
          ((text.dropWhile isBlank).head?.isSome &&
            !(text.dropWhile isBlank).head?.any isMark) := by
        cases first : (text.dropWhile isBlank).head? with
        | none => rfl
        | some d => exact isPlain_of_solid (head_dropWhile isBlank text d first)
      rw [squeeze_solid solid, singleSpaced_solid solid, inductionHypothesis,
        passes_solid solid _ (unindented_singleSpaced text), head?_singleSpaced, joint, next,
        Bool.and_assoc, Bool.and_assoc]
      rfl

/-! ### Laws -/

/-- Only blanks are put between two characters. -/
theorem blank_joint (c : Char) (text : List Char) : Blank (joint c text) := by
  unfold joint
  split
  · intro d member
    rw [List.mem_singleton.mp member]
    decide
  · nofun

/-- Squeezing keeps the first solid character in front. -/
theorem head?_squeeze (text : List Char) :
    (squeeze text).head? = (text.dropWhile isBlank).head? := by
  rw [← squeeze_dropWhile]
  cases split : text.dropWhile isBlank with
  | nil => rfl
  | cons c rest =>
    have solid : isBlank c = false := head_dropWhile isBlank text c (by rw [split]; rfl)
    rw [squeeze_solid solid]
    rfl

/-- Behind a character the squeezed text keeps the space that it was given there. -/
theorem joint_squeeze (c : Char) (text : List Char) :
    joint c (joint c text ++ squeeze text) = joint c text := by
  have start := unindented_squeeze text
  have unspaced : (squeeze text).head?.any isBlank = false := by
    cases first : (squeeze text).head? with
    | none => rfl
    | some d => exact start d first
  have begins (present : Bool) :
      (spaceIf present ++ squeeze text).head?.any isBlank = present := by
    cases present with
    | false => exact unspaced
    | true => rfl
  have dropped (present : Bool) :
      (spaceIf present ++ squeeze text).dropWhile isBlank = squeeze text :=
    skipBlanks_spaceIf present start
  have shape (other : List Char) : joint c other = spaceIf (c == ',' || (isPlain c &&
      other.head?.any isBlank && (other.dropWhile isBlank).head?.any isPlain)) := rfl
  rw [shape text, shape, begins, dropped, head?_squeeze]
  refine congrArg spaceIf ?_
  cases c == ',' <;> cases isPlain c <;> cases text.head?.any isBlank <;> simp

/-- Squeezing again changes nothing. -/
theorem squeeze_squeeze (text : List Char) : squeeze (squeeze text) = squeeze text := by
  induction text with
  | nil => rfl
  | cons c text inductionHypothesis =>
    by_cases blank : isBlank c = true
    · rw [squeeze_cons_of_isBlank blank, inductionHypothesis]
    · have solid := eq_false_of_ne_true blank
      rw [squeeze_solid solid, squeeze_solid solid, joint_squeeze,
        squeeze_blank (blank_joint c text), inductionHypothesis]

/-- The characters of a text that are not blank. -/
def solidChars (text : List Char) : List Char := text.filter fun c => !isBlank c

/-- Squeezing keeps all solid characters in their order. -/
theorem solidChars_squeeze (text : List Char) : solidChars (squeeze text) = solidChars text := by
  induction text with
  | nil => rfl
  | cons c text inductionHypothesis =>
    by_cases blank : isBlank c = true
    · rw [squeeze_cons_of_isBlank blank, inductionHypothesis, solidChars, solidChars,
        List.filter_cons_of_neg (by simp [blank])]
    · have solid := eq_false_of_ne_true blank
      have lost : solidChars (joint c text) = [] :=
        List.filter_eq_nil_iff.mpr fun d member => by simp [blank_joint c text d member]
      rw [squeeze_solid solid, solidChars, List.filter_cons_of_pos (by simp [solid]),
        List.filter_append, solidChars, List.filter_cons_of_pos (by simp [solid])]
      exact congrArg (c :: ·) ((congrArg (· ++ _) lost).trans inductionHypothesis)

/-- Blanks in front of a mark and behind it do not count. -/
theorem squeeze_insert {c : Char} (mark : isMark c = true) {blank : List Char}
    (isBlank : Blank blank) (front back : List Char) :
    squeeze (front ++ (blank ++ c :: back)) = squeeze (front ++ c :: back) ∧
      squeeze (front ++ c :: (blank ++ back)) = squeeze (front ++ c :: back) := by
  have notPlain : isPlain c = false := by simp [isPlain, mark]
  have apart (back : List Char) :
      pieces (front ++ c :: back) = pieces front ++ pieces (c :: back) :=
    pieces_append_of_not_plain notPlain front back
  constructor
  · refine congrArg glue ?_
    cases blank with
    | nil => rfl
    | cons d blank =>
      rw [apart]
      exact pieces_append_gap ⟨isBlank, List.cons_ne_nil d blank⟩ front (c :: back)
  · refine congrArg glue ?_
    rw [apart, apart, pieces, pieces, if_pos mark, if_pos mark, pieces_append_blank isBlank]

/-- Squeezing gives a canonical spelling: the three passes give it, squeezing it again gives it
again, it has the characters of the text that are not blank, and blanks beside a mark of the text do
not count. -/
theorem squeeze_canonical (text : List Char) :
    squeeze text = withSpacedCommas (withTightBrackets (singleSpaced text)) ∧
      squeeze (squeeze text) = squeeze text ∧
      solidChars (squeeze text) = solidChars text ∧
      ∀ front mark back blank, text = front ++ mark :: back → isMark mark = true → Blank blank →
        squeeze (front ++ (blank ++ mark :: back)) = squeeze text ∧
          squeeze (front ++ mark :: (blank ++ back)) = squeeze text := by
  refine ⟨squeeze_eq_passes text, squeeze_squeeze text, solidChars_squeeze text, ?_⟩
  rintro front mark back blank rfl isMark isBlank
  exact squeeze_insert isMark isBlank front back

/-- A text with a bracket beside a comma, two commas beside each other and a comma at its end. -/
def crowdedText : List Char := "A < b ,[ ] ,, c ,".toList

/-- Blanks beside a mark do not count, and a comma keeps one space behind it. -/
theorem squeeze_canonical_crowded :
    squeeze crowdedText = "A<b, [], , c, ".toList ∧
      squeeze "A < b \t\n,[ ] ,, c ,".toList = squeeze crowdedText ∧
      squeeze "A < b ,\t\n[ ] ,, c ,".toList = squeeze crowdedText := by
  have isBlank : Blank "\t\n".toList := List.all_eq_true.mp (by decide)
  obtain ⟨before, behind⟩ := (squeeze_canonical crowdedText).2.2.2 "A < b ".toList ','
    "[ ] ,, c ,".toList "\t\n".toList rfl (by decide) isBlank
  exact ⟨by decide +kernel, before, behind⟩

end InterfaceAudit.Text
