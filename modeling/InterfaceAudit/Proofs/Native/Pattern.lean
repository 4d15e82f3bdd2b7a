import InterfaceAudit.Native.Implementation
import InterfaceAudit.Proofs.Text.Blank
import InterfaceAudit.Proofs.Text.Mark

/-!
Shapes of native lines.
A shape says how a line is put together, and the readers of native lines find exactly these shapes.
-/

namespace InterfaceAudit.Native

open Text

/-! ### Names -/

/-- A text begins with a name and an opening parenthesis behind it. -/
def Calls (name text : List Char) : Prop :=
  name ≠ [] ∧ (∀ c ∈ name, isWord c = true) ∧
    ∃ gap rest, Blank gap ∧ text = name ++ (gap ++ '(' :: rest)

/-- A call starts with the first character of its name. -/
theorem Calls.unindented {name text : List Char} (calls : Calls name text) : Unindented text := by
  obtain ⟨nonempty, word, gap, rest, -, rfl⟩ := calls
  cases name with
  | nil => contradiction
  | cons c name => exact unindented_cons (isBlank_false_of_isWord (word c List.mem_cons_self))

/-- The name of a call ends at the blank or at the parenthesis. -/
theorem takeWhile_isWord_calls {name gap : List Char} (word : ∀ c ∈ name, isWord c = true)
    (blank : Blank gap) (rest : List Char) :
    (name ++ (gap ++ '(' :: rest)).takeWhile isWord = name ∧
      (name ++ (gap ++ '(' :: rest)).dropWhile isWord = gap ++ '(' :: rest := by
  refine run_append_of_head word fun c first => ?_
  cases gap with
  | nil =>
    obtain rfl : '(' = c := by simpa using first
    decide
  | cons other gap =>
    obtain rfl : other = c := by simpa using first
    exact isWord_false_of_isBlank (blank other List.mem_cons_self)

/-- The word in front of a parenthesis is the name of the call. -/
theorem wordBefore_eq_some_iff {text name : List Char} :
    wordBefore '(' text = some name ↔ Calls name text := by
  constructor
  · intro found
    unfold wordBefore at found
    split at found
    · contradiction
    · next other c rest skipped apart =>
      split at found
      · next opens =>
        obtain rfl := Option.some.inj found
        obtain rfl := beq_iff_eq.mp opens
        obtain ⟨-, gap, blank, dropped⟩ := skipBlanks_eq_iff.mp skipped
        refine ⟨fun empty => apart empty, fun c member => List.mem_takeWhile_imp member, gap, rest,
          blank, ?_⟩
        rw [← dropped, List.takeWhile_append_dropWhile]
      · contradiction
    · contradiction
  · rintro ⟨nonempty, word, gap, rest, blank, rfl⟩
    have ⟨taken, dropped⟩ := takeWhile_isWord_calls word blank rest
    have skipped : skipBlanks (gap ++ '(' :: rest) = '(' :: rest :=
      skipBlanks_eq_iff.mpr ⟨unindented_cons (by decide), gap, blank, rfl⟩
    cases name with
    | nil => contradiction
    | cons c name => simp only [wordBefore, taken, dropped, skipped, beq_self_eq_true, if_true]

/-! ### Declarations -/

/-- The word for a static method, a type in one piece and the name stand behind the indent. -/
def StaticDeclaration (name line : List Char) : Prop :=
  ∃ indent gap type space call, Blank indent ∧ Gap gap ∧ type ≠ [] ∧
    (∀ c ∈ type, isBlank c = false) ∧ Gap space ∧ Calls name call ∧
    line = indent ++ ("static".toList ++ (gap ++ (type ++ (space ++ call))))

/-- A return type ends at the gap behind it. -/
theorem dropWhile_solid {type space call : List Char} (solid : ∀ c ∈ type, isBlank c = false)
    (isGap : Gap space) :
    (type ++ (space ++ call)).dropWhile (fun c => !isBlank c) = space ++ call := by
  rw [List.dropWhile_append_of_pos fun c member => by simp [solid c member]]
  cases space with
  | nil => exact absurd rfl isGap.ne_nil
  | cons c space => simp [isGap.blank c List.mem_cons_self]

/-- A static name is read exactly from a static declaration of it. -/
theorem staticName?_eq_some_iff {line name : List Char} :
    staticName? line = some name ↔ StaticDeclaration name line := by
  simp only [staticName?, Option.bind_eq_bind, Option.bind_eq_some_iff, afterSpelling_eq_some_iff,
    skipSomeBlanks_eq_some_iff]
  constructor
  · rintro ⟨_, spelled, rest, ⟨-, gap, isGap, rfl⟩, found⟩
    obtain ⟨-, indent, blank, rfl⟩ := skipBlanks_eq_iff.mp spelled
    split at found
    · next c others =>
      split at found
      · contradiction
      · next solid =>
        simp only [Option.bind_eq_some_iff, skipSomeBlanks_eq_some_iff, wordBefore_eq_some_iff]
          at found
        obtain ⟨call, ⟨-, space, isSpace, dropped⟩, calls⟩ := found
        refine ⟨indent, gap, (c :: others).takeWhile fun c => !isBlank c, space, call, blank, isGap,
          by simp [solid], fun other member => ?_, isSpace, calls, ?_⟩
        · simpa using List.mem_takeWhile_imp member
        · rw [← dropped, List.takeWhile_append_dropWhile]
    · contradiction
  · rintro ⟨indent, gap, type, space, call, blank, isGap, nonempty, solid, isSpace, calls, rfl⟩
    cases type with
    | nil => contradiction
    | cons c type =>
      have first : isBlank c = false := solid c List.mem_cons_self
      refine ⟨gap ++ (c :: type ++ (space ++ call)), ?_, c :: type ++ (space ++ call),
        ⟨unindented_cons first, gap, isGap, rfl⟩, ?_⟩
      · exact skipBlanks_eq_iff.mpr ⟨unindented_cons (by decide), indent, blank, rfl⟩
      · simp only [List.cons_append, first, Bool.false_eq_true, if_false, Option.bind_eq_some_iff,
          skipSomeBlanks_eq_some_iff, wordBefore_eq_some_iff]
        exact ⟨call, ⟨calls.unindented, space, isSpace, dropWhile_solid solid isSpace⟩, calls⟩

/-- A text begins with a type, and the name stands behind it. -/
def TypedCall (type name text : List Char) : Prop :=
  ∃ gap call, Gap gap ∧ Calls name call ∧ text = type ++ (gap ++ call)

/-- A name is read behind a type exactly where the type and a call stand. -/
theorem nameAfterType_eq_some_iff {type name text : List Char} :
    nameAfterType type text = some name ↔ TypedCall type name text := by
  simp only [nameAfterType, Option.bind_eq_bind, Option.bind_eq_some_iff, afterSpelling_eq_some_iff,
    skipSomeBlanks_eq_some_iff, wordBefore_eq_some_iff]
  constructor
  · rintro ⟨_, rfl, call, ⟨-, gap, isGap, rfl⟩, calls⟩
    exact ⟨gap, call, isGap, calls, rfl⟩
  · rintro ⟨gap, call, isGap, calls, rfl⟩
    exact ⟨_, rfl, call, ⟨calls.unindented, gap, isGap, rfl⟩, calls⟩

/-- In a list that is in an order a search finds a value of the first item that has one. -/
theorem findSome?_eq_some_iff_of_pairwise {Item Value : Type} {Before : Item → Item → Prop}
    (asymmetric : ∀ {first second}, Before first second → ¬ Before second first)
    {items : List Item} (ordered : items.Pairwise Before) {read : Item → Option Value}
    {value : Value} :
    items.findSome? read = some value ↔
      ∃ item ∈ items, read item = some value ∧
        ∀ other ∈ items, Before other item → read other = none := by
  rw [List.findSome?_eq_some_iff]
  constructor
  · rintro ⟨front, item, back, rfl, found, unread⟩
    refine ⟨item, List.mem_append_cons_self, found, fun other member before => ?_⟩
    have behind := (List.pairwise_cons.mp (List.pairwise_append.mp ordered).2.1).1
    rcases List.mem_append.mp member with inFront | inBack
    · exact unread other inFront
    · rcases List.mem_cons.mp inBack with rfl | later
      · exact absurd before (asymmetric before)
      · exact absurd before (asymmetric (behind other later))
  · rintro ⟨item, member, found, first⟩
    obtain ⟨front, back, rfl⟩ := List.append_of_mem member
    refine ⟨front, item, back, rfl, found, fun other inFront => ?_⟩
    exact first other (List.mem_append_left _ inFront)
      ((List.pairwise_append.mp ordered).2.2 other inFront item List.mem_cons_self)

/-- The candidates are what is left of the line behind some of its indent. -/
theorem mem_indentSplits {line text : List Char} :
    text ∈ indentSplits line ↔ ∃ indent, Blank indent ∧ line = indent ++ text := by
  induction line with
  | nil =>
    simp only [indentSplits, List.mem_singleton, List.nil_eq_append_iff]
    exact ⟨fun empty => ⟨[], by simp [Blank], rfl, empty⟩, fun ⟨_, _, _, empty⟩ => empty⟩
  | cons c line inductionHypothesis =>
    have whole : c :: line = [] ++ c :: line := rfl
    by_cases blank : isBlank c = true
    · rw [indentSplits, if_pos blank, List.mem_append, List.mem_singleton, inductionHypothesis]
      constructor
      · rintro (⟨indent, indentBlank, rfl⟩ | rfl)
        · exact ⟨c :: indent, List.forall_mem_cons.mpr ⟨blank, indentBlank⟩, rfl⟩
        · exact ⟨[], by simp [Blank], whole⟩
      · rintro ⟨indent, indentBlank, split⟩
        cases indent with
        | nil => exact .inr split.symm
        | cons other indent =>
          obtain ⟨rfl, rfl⟩ := List.cons.inj split
          exact .inl ⟨indent, (List.forall_mem_cons.mp indentBlank).2, rfl⟩
    · rw [indentSplits, if_neg blank, List.mem_singleton]
      constructor
      · rintro rfl
        exact ⟨[], by simp [Blank], whole⟩
      · rintro ⟨indent, indentBlank, split⟩
        cases indent with
        | nil => exact split.symm
        | cons other indent =>
          obtain ⟨rfl, -⟩ := List.cons.inj split
          exact absurd (indentBlank c List.mem_cons_self) blank

/-- A candidate is no longer than the line. -/
theorem length_le_of_mem_indentSplits {line text : List Char} (member : text ∈ indentSplits line) :
    text.length ≤ line.length := by
  obtain ⟨indent, -, rfl⟩ := mem_indentSplits.mp member
  simp

/-- The candidates are tried from the longest indent to the shortest. -/
theorem indentSplits_sorted (line : List Char) :
    (indentSplits line).Pairwise fun first second => first.length < second.length := by
  induction line with
  | nil => simp [indentSplits]
  | cons c line inductionHypothesis =>
    rw [indentSplits]
    split
    · refine List.pairwise_append.mpr ⟨inductionHypothesis, List.pairwise_singleton .., ?_⟩
      intro text member whole isWhole
      rw [List.mem_singleton.mp isWhole]
      exact Nat.lt_succ_of_le (length_le_of_mem_indentSplits member)
    · exact List.pairwise_singleton ..

/-- The longest indent behind which a reader succeeds. -/
theorem findSome?_indentSplits_eq_some_iff {Value : Type} {read : List Char → Option Value}
    {line : List Char} {value : Value} :
    (indentSplits line).findSome? read = some value ↔
      ∃ indent text, Blank indent ∧ line = indent ++ text ∧ read text = some value ∧
        ∀ longer rest, Blank longer → line = longer ++ rest → indent.length < longer.length →
          read rest = none := by
  have shorter_iff {indent text longer rest : List Char} (split : line = indent ++ text)
      (other : line = longer ++ rest) :
      rest.length < text.length ↔ indent.length < longer.length := by
    have total := congrArg List.length (split.symm.trans other)
    simp only [List.length_append] at total
    omega
  rw [findSome?_eq_some_iff_of_pairwise Nat.lt_asymm (indentSplits_sorted line)]
  constructor
  · rintro ⟨text, member, found, unread⟩
    obtain ⟨indent, blank, split⟩ := mem_indentSplits.mp member
    refine ⟨indent, text, blank, split, found, fun longer rest longerBlank other isLonger => ?_⟩
    exact unread rest (mem_indentSplits.mpr ⟨longer, longerBlank, other⟩)
      ((shorter_iff split other).mpr isLonger)
  · rintro ⟨indent, text, blank, split, found, longest⟩
    refine ⟨text, mem_indentSplits.mpr ⟨indent, blank, split⟩, found, fun rest member shorter => ?_⟩
    obtain ⟨longer, longerBlank, other⟩ := mem_indentSplits.mp member
    exact longest longer rest longerBlank other ((shorter_iff split other).mp shorter)

/-- A known type and the name stand behind the indent. Where a line can be read in several ways, the
longest indent counts, and then the first of the types. -/
def InstanceDeclaration (types : List (List Char)) (name line : List Char) : Prop :=
  ∃ indent text earlier type later, Blank indent ∧ line = indent ++ text ∧
    types = earlier ++ type :: later ∧ TypedCall type name text ∧
    (∀ other ∈ earlier, ∀ otherName, ¬ TypedCall other otherName text) ∧
    ∀ longer rest, Blank longer → line = longer ++ rest → indent.length < longer.length →
      ∀ other ∈ types, ∀ otherName, ¬ TypedCall other otherName rest

/-- No name is read where the type and a call do not stand. -/
theorem nameAfterType_eq_none_iff {type text : List Char} :
    nameAfterType type text = none ↔ ∀ name, ¬ TypedCall type name text := by
  rw [Option.eq_none_iff_forall_ne_some]
  exact forall_congr' fun name => not_congr nameAfterType_eq_some_iff

/-- A method is read exactly from an instance declaration of it. -/
theorem methodName?_eq_some_iff {types : List (List Char)} {line name : List Char} :
    methodName? types line = some name ↔ InstanceDeclaration types name line := by
  rw [methodName?, findSome?_indentSplits_eq_some_iff]
  simp only [List.findSome?_eq_none_iff, List.findSome?_eq_some_iff, nameAfterType_eq_some_iff,
    nameAfterType_eq_none_iff]
  constructor
  · rintro ⟨indent, text, blank, split, ⟨earlier, type, later, types, typed, unread⟩, longest⟩
    exact ⟨indent, text, earlier, type, later, blank, split, types, typed, unread, longest⟩
  · rintro ⟨indent, text, earlier, type, later, blank, split, types, typed, unread, longest⟩
    exact ⟨indent, text, blank, split, ⟨earlier, type, later, types, typed, unread⟩, longest⟩

/-! ### Definitions -/

/-- Exactly one of the characters beside a place is part of a word. -/
def AtBoundary (front text : List Char) : Prop :=
  front.getLast?.any isWord ≠ text.head?.any isWord

/-- The test for a boundary looks at the characters on both sides. -/
theorem isBoundary_iff {front text : List Char} :
    isBoundary front.getLast? text = true ↔ AtBoundary front text := by
  rw [isBoundary, bne_iff_ne, AtBoundary]

/-- The places of a line, each with the text in front of it and the text behind it. -/
def splits : List Char → List (List Char × List Char)
  | [] => [([], [])]
  | c :: line => ([], c :: line) :: (splits line).map fun split => (c :: split.1, split.2)

/-- The splits are all ways to divide the line. -/
theorem mem_splits {line front text : List Char} :
    (front, text) ∈ splits line ↔ line = front ++ text := by
  induction line generalizing front with
  | nil => simp [splits, Prod.ext_iff]
  | cons c line inductionHypothesis =>
    rw [splits, List.mem_cons, List.mem_map]
    constructor
    · rintro (whole | ⟨⟨front, text⟩, member, same⟩)
      · obtain ⟨rfl, rfl⟩ := Prod.mk.inj whole
        rfl
      · obtain ⟨rfl, rfl⟩ := Prod.mk.inj same
        rw [inductionHypothesis.mp member, List.cons_append]
    · intro split
      cases front with
      | nil => exact .inl (congrArg (Prod.mk []) split.symm)
      | cons other front =>
        obtain ⟨rfl, rest⟩ := List.cons.inj split
        exact .inr ⟨(front, text), inductionHypothesis.mpr rest, rfl⟩

/-- The splits are tried from the left. -/
theorem splits_sorted (line : List Char) :
    (splits line).Pairwise fun first second => first.1.length < second.1.length := by
  induction line with
  | nil => exact List.pairwise_singleton ..
  | cons c line inductionHypothesis =>
    refine List.pairwise_cons.mpr ⟨fun split member => ?_, ?_⟩
    · obtain ⟨rest, -, rfl⟩ := List.mem_map.mp member
      exact Nat.zero_lt_succ _
    · exact inductionHypothesis.map _ fun _ _ => Nat.succ_lt_succ

/-- A reader that is only asked at boundaries. -/
def readAtBoundary {Value : Type} (read : List Char → Option Value) (before : List Char)
    (split : List Char × List Char) : Option Value :=
  if isBoundary (before ++ split.1).getLast? split.2 then read split.2 else none

/-- A value is read at a boundary where it can be read. -/
theorem readAtBoundary_eq_some_iff {Value : Type} {read : List Char → Option Value}
    {before front text : List Char} {value : Value} :
    readAtBoundary read before (front, text) = some value ↔
      AtBoundary (before ++ front) text ∧ read text = some value := by
  rw [readAtBoundary, Option.ite_none_right_eq_some, isBoundary_iff]

/-- No value is read where there is no boundary or nothing to read. -/
theorem readAtBoundary_eq_none_iff {Value : Type} {read : List Char → Option Value}
    {before front text : List Char} :
    readAtBoundary read before (front, text) = none ↔
      (AtBoundary (before ++ front) text → read text = none) := by
  rw [readAtBoundary, ite_eq_right_iff, isBoundary_iff]

/-- The leftmost word is the first split at which one is read. -/
theorem leftmostWord_eq_findSome? {Value : Type} (read : List Char → Option Value)
    (before line : List Char) :
    leftmostWord read before.getLast? line =
      (splits line).findSome? (readAtBoundary read before) := by
  induction line generalizing before with
  | nil => simp [leftmostWord, splits, readAtBoundary]
  | cons c line inductionHypothesis =>
    have later := inductionHypothesis (before ++ [c])
    rw [List.getLast?_concat] at later
    have shifted : (readAtBoundary read before ∘ fun split => (c :: split.1, split.2)) =
        readAtBoundary read (before ++ [c]) := by
      funext split
      simp only [Function.comp_apply, readAtBoundary, List.append_assoc, List.singleton_append]
    rw [leftmostWord, splits, List.findSome?_cons, List.findSome?_map, shifted, ← later]
    simp only [readAtBoundary, List.append_nil]
    rfl

/-- The leftmost boundary at which a reader succeeds. -/
theorem leftmostWord_eq_some_iff {Value : Type} (read : List Char → Option Value)
    (before line : List Char) (value : Value) :
    leftmostWord read before.getLast? line = some value ↔
      ∃ front text, line = front ++ text ∧ AtBoundary (before ++ front) text ∧
        read text = some value ∧
        ∀ shorter rest, line = shorter ++ rest → shorter.length < front.length →
          AtBoundary (before ++ shorter) rest → read rest = none := by
  rw [leftmostWord_eq_findSome?,
    findSome?_eq_some_iff_of_pairwise Nat.lt_asymm (splits_sorted line)]
  simp only [Prod.exists, Prod.forall, mem_splits, readAtBoundary_eq_some_iff,
    readAtBoundary_eq_none_iff, and_assoc]

/-- A word is found when it can be read at some boundary. -/
theorem leftmostWord_isSome_iff {Value : Type} (read : List Char → Option Value)
    (before line : List Char) :
    (leftmostWord read before.getLast? line).isSome ↔
      ∃ front text, line = front ++ text ∧ AtBoundary (before ++ front) text ∧
        (read text).isSome := by
  rw [leftmostWord_eq_findSome?, List.findSome?_isSome_iff]
  simp only [Prod.exists, mem_splits, Option.isSome_iff_exists, readAtBoundary_eq_some_iff,
    exists_and_left]

/-- A class qualifies a name at the start of a text. -/
def ScopedCall (className name text : List Char) : Prop :=
  ∃ call, Calls name call ∧ text = className ++ "::".toList ++ call

/-- The leftmost name that a class qualifies on a line. -/
def LeftmostDefinition (className name line : List Char) : Prop :=
  ∃ front text, line = front ++ text ∧ AtBoundary front text ∧ ScopedCall className name text ∧
    ∀ shorter rest, line = shorter ++ rest → shorter.length < front.length →
      AtBoundary shorter rest → ∀ other, ¬ ScopedCall className other rest

/-- A scoped name is read exactly where the class and a call stand. -/
theorem scopedName_eq_some_iff {className name text : List Char} :
    ((afterScope className text).bind (wordBefore '(')) = some name ↔
      ScopedCall className name text := by
  simp only [afterScope, Option.bind_eq_some_iff, afterSpelling_eq_some_iff, wordBefore_eq_some_iff]
  exact ⟨fun ⟨call, split, calls⟩ => ⟨call, calls, split⟩,
    fun ⟨call, calls, split⟩ => ⟨call, split, calls⟩⟩

/-- The defined name is that of the leftmost definition of the line. -/
theorem definedName?_eq_some_iff {className line name : List Char} :
    definedName? className line = some name ↔ LeftmostDefinition className name line := by
  have reads := leftmostWord_eq_some_iff
    (fun text => (afterScope className text).bind (wordBefore '(')) [] line name
  simp only [List.nil_append, scopedName_eq_some_iff, Option.eq_none_iff_forall_ne_some, ne_eq]
    at reads
  exact reads

/-- A class qualifies its own name somewhere on a line. -/
def ConstructorDefinition (className line : List Char) : Prop :=
  ∃ front text gap rest, line = front ++ text ∧ AtBoundary front text ∧ Blank gap ∧
    text = className ++ "::".toList ++ (className ++ (gap ++ '(' :: rest))

/-- The parenthesis is looked for behind the blanks only. -/
theorem opens_isSome_iff {text : List Char} :
    (match skipBlanks text with
      | '(' :: _ => some ()
      | _ => none).isSome = true ↔ ∃ gap rest, Blank gap ∧ text = gap ++ '(' :: rest := by
  constructor
  · intro opens
    split at opens
    · next rest skipped =>
      obtain ⟨-, gap, blank, split⟩ := skipBlanks_eq_iff.mp skipped
      exact ⟨gap, rest, blank, split⟩
    · contradiction
  · rintro ⟨gap, rest, blank, rfl⟩
    rw [skipBlanks_eq_iff.mpr ⟨unindented_cons (by decide), gap, blank, rfl⟩]
    rfl

/-- The test for constructors finds exactly their definitions. -/
theorem definesConstructor_eq_true_iff {className line : List Char} :
    definesConstructor className line = true ↔ ConstructorDefinition className line := by
  refine (leftmostWord_isSome_iff _ [] line).trans ?_
  simp only [List.nil_append, Option.bind_eq_bind, Option.isSome_iff_exists,
    Option.bind_eq_some_iff, afterScope, afterSpelling_eq_some_iff]
  constructor
  · rintro ⟨front, _, split, boundary, found, _, rfl, text, rfl, opens⟩
    obtain ⟨gap, rest, blank, rfl⟩ :=
      opens_isSome_iff.mp (Option.isSome_iff_exists.mpr ⟨found, opens⟩)
    exact ⟨front, _, gap, rest, split, boundary, blank, rfl⟩
  · rintro ⟨front, _, gap, rest, split, boundary, blank, rfl⟩
    obtain ⟨found, opens⟩ :=
      Option.isSome_iff_exists.mp (opens_isSome_iff.mpr ⟨gap, rest, blank, rfl⟩)
    exact ⟨front, _, split, boundary, found, _, rfl, _, rfl, opens⟩

/-- A class qualifies a name in front of a parenthesis somewhere on a line. -/
def QualifiesName (className line : List Char) : Prop :=
  ConstructorDefinition className line ∨ ∃ name, LeftmostDefinition className name line

instance (className line : List Char) : Decidable (QualifiesName className line) :=
  decidable_of_iff
    (definesConstructor className line = true ∨ (definedName? className line).isSome = true) <| by
    simp only [QualifiesName, definesConstructor_eq_true_iff, Option.isSome_iff_exists,
      definedName?_eq_some_iff]

end InterfaceAudit.Native
