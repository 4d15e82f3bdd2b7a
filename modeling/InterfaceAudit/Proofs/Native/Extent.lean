import InterfaceAudit.Proofs.Native.Link
import Mathlib.Algebra.Ring.Int.Defs
import Mathlib.Data.List.Induction

/-!
Extents of native bodies.
A body starts on the first line that defines its symbol. It ends on the first line with a closing
brace at which its braces balance, unless another body starts before.
-/

namespace InterfaceAudit.Native

open Text

/-- A body starts on the first line that defines its symbol. -/
def Starts (className : List Char) (lines : List (List Char)) (owner : Owner) (number : Nat) :
    Prop :=
  IsLeast (numbersWhere lines (owner.DefinedOn className)) number

/-- The lines from a first to a last number. -/
def extent (lines : List (List Char)) (first last : Nat) : List (List Char) :=
  (lines.take last).drop (first - 1)

/-- A body that starts on a line may end on another one or on the same. -/
structure MayEnd (className : List Char) (lines : List (List Char)) (first last : Nat) : Prop where
  ordered : first ≤ last
  unbroken : ∀ owner next, Starts className lines owner next → first < next → last < next
  balanced : (extent lines first last).flatten.count '\x7b' =
    (extent lines first last).flatten.count '\x7d'
  closed : last ∈ numbersWhere lines ('\x7d' ∈ ·)

/-- The numbers of the lines on which a body may end. -/
def endings (className : List Char) (lines : List (List Char)) (first : Nat) : Set Nat :=
  {last | MayEnd className lines first last}

/-! ### One more line -/

/-- A line number is at most the number of lines. -/
theorem le_length_of_mem_numbersWhere {lines : List (List Char)} {holds : List Char → Prop}
    {number : Nat} (member : number ∈ numbersWhere lines holds) : number ≤ lines.length := by
  obtain ⟨positive, line, found, -⟩ := member
  obtain ⟨inside, -⟩ := List.getElem?_eq_some_iff.mp found
  omega

/-- One more line may have the next number. -/
theorem mem_numbersWhere_concat {lines : List (List Char)} {line : List Char}
    {holds : List Char → Prop} {number : Nat} :
    number ∈ numbersWhere (lines ++ [line]) holds ↔
      number ∈ numbersWhere lines holds ∨ number = lines.length + 1 ∧ holds line := by
  by_cases inside : number - 1 < lines.length
  · have apart : number ≠ lines.length + 1 := by omega
    simp [numbersWhere, List.getElem?_append_left inside, apart]
  · have absent : number ∉ numbersWhere lines holds := by
      intro member
      have bounded := le_length_of_mem_numbersWhere member
      have positive := member.1
      omega
    simp only [absent, false_or]
    constructor
    · intro member
      have bounded := le_length_of_mem_numbersWhere member
      obtain ⟨positive, other, found, held⟩ := member
      rw [List.length_append, List.length_singleton] at bounded
      obtain rfl : number = lines.length + 1 := by omega
      have same : line = other := by simpa using found
      exact ⟨rfl, same ▸ held⟩
    · intro ⟨isLast, held⟩
      subst isLast
      exact ⟨by omega, line, by simp, held⟩

/-- A set of numbers that grows by a number above all others has a new least number only if it was
empty. -/
theorem isLeast_grown_iff {old new : Set Nat} {bound number : Nat} {joins : Prop}
    (grows : ∀ other, other ∈ new ↔ other ∈ old ∨ other = bound ∧ joins)
    (below : ∀ other ∈ old, other < bound) :
    IsLeast new number ↔ IsLeast old number ∨ number = bound ∧ joins ∧ old = ∅ := by
  constructor
  · intro ⟨member, least⟩
    have leastOld : number ∈ lowerBounds old := fun other inOld =>
      least ((grows other).mpr (.inl inOld))
    rcases (grows number).mp member with inOld | ⟨isBound, joined⟩
    · exact .inl ⟨inOld, leastOld⟩
    · refine .inr ⟨isBound, joined, Set.eq_empty_of_forall_notMem fun other inOld => ?_⟩
      have above := leastOld inOld
      have under := below other inOld
      omega
  · intro cases
    rcases cases with ⟨inOld, least⟩ | ⟨isBound, joined, isEmpty⟩
    · refine ⟨(grows number).mpr (.inl inOld), fun other inNew => ?_⟩
      rcases (grows other).mp inNew with otherOld | ⟨isBound, -⟩
      · exact least otherOld
      · exact isBound ▸ Nat.le_of_lt (below number inOld)
    · refine ⟨(grows number).mpr (.inr ⟨isBound, joined⟩), fun other inNew => ?_⟩
      rcases (grows other).mp inNew with otherOld | ⟨sameBound, -⟩
      · exact absurd otherOld (isEmpty ▸ Set.notMem_empty other)
      · omega

section Growth

variable {className : List Char} {lines : List (List Char)} {line : List Char} {owner other : Owner}
  {first last number : Nat}

theorem Starts.le_length (starts : Starts className lines owner number) : number ≤ lines.length :=
  le_length_of_mem_numbersWhere starts.1

/-- A body starts on one more line at the latest. -/
theorem Starts.le_concat (starts : Starts className (lines ++ [line]) owner number) :
    number ≤ lines.length + 1 := by
  have inside := starts.le_length
  rwa [List.length_append] at inside

/-- Without a line that defines its owner no body starts. -/
theorem numbersWhere_eq_empty_iff :
    numbersWhere lines (owner.DefinedOn className) = ∅ ↔
      ∀ number, ¬ Starts className lines owner number := by
  rw [← not_exists, ← Set.not_nonempty_iff_eq_empty, nonempty_iff_isLeast]
  rfl

/-- A new line starts the body of what it defines first. -/
theorem starts_concat :
    Starts className (lines ++ [line]) owner number ↔
      Starts className lines owner number ∨
        number = lines.length + 1 ∧ owner.DefinedOn className line ∧
          ∀ earlier, ¬ Starts className lines owner earlier := by
  rw [← numbersWhere_eq_empty_iff]
  exact isLeast_grown_iff (fun _ => mem_numbersWhere_concat)
    fun _ member => Nat.lt_succ_of_le (le_length_of_mem_numbersWhere member)

/-- At most one body starts on a line. -/
theorem Starts.owner_unique (starts : Starts className lines owner number)
    (alsoStarts : Starts className lines other number) : owner = other := by
  obtain ⟨⟨-, line, found, defined⟩, -⟩ := starts
  obtain ⟨⟨-, otherLine, alsoFound, alsoDefined⟩, -⟩ := alsoStarts
  obtain rfl : line = otherLine := Option.some.inj (found.symm.trans alsoFound)
  exact defined.unique alsoDefined

theorem MayEnd.le_length (ends : MayEnd className lines first last) : last ≤ lines.length :=
  le_length_of_mem_numbersWhere ends.closed

/-- A new line changes nothing about the endings before it. -/
theorem mayEnd_concat_of_le (bounded : last ≤ lines.length) :
    MayEnd className (lines ++ [line]) first last ↔ MayEnd className lines first last := by
  have sameExtent : extent (lines ++ [line]) first last = extent lines first last := by
    rw [extent, extent, List.take_append_of_le_length bounded]
  constructor
  · intro ⟨ordered, unbroken, balanced, closed⟩
    refine ⟨ordered, fun owner next starts => unbroken owner next (starts_concat.mpr (.inl starts)),
      sameExtent ▸ balanced, ?_⟩
    rcases mem_numbersWhere_concat.mp closed with before | ⟨isLast, -⟩
    · exact before
    · omega
  · intro ⟨ordered, unbroken, balanced, closed⟩
    refine ⟨ordered, fun owner next starts after => ?_, sameExtent.symm ▸ balanced,
      mem_numbersWhere_concat.mpr (.inl closed)⟩
    rcases starts_concat.mp starts with before | ⟨isLast, -⟩
    · exact unbroken owner next before after
    · omega

/-- One more line adds at most itself to the lines where a body may end. -/
theorem mem_endings_concat :
    last ∈ endings className (lines ++ [line]) first ↔
      last ∈ endings className lines first ∨
        last = lines.length + 1 ∧ MayEnd className (lines ++ [line]) first (lines.length + 1) := by
  by_cases bounded : last ≤ lines.length
  · have apart : last ≠ lines.length + 1 := by omega
    simp only [endings, Set.mem_ofPred_eq, mayEnd_concat_of_le bounded, apart, false_and, or_false]
  · have absent : ¬ MayEnd className lines first last := fun ends => bounded ends.le_length
    simp only [endings, Set.mem_ofPred_eq, absent, false_or]
    constructor
    · intro ends
      have above := ends.le_length
      rw [List.length_append, List.length_singleton] at above
      obtain rfl : last = lines.length + 1 := by omega
      exact ⟨rfl, ends⟩
    · intro ⟨isLast, ends⟩
      exact isLast ▸ ends

/-- A new line is the least ending of a body that has no other ending. -/
theorem isLeast_endings_concat :
    IsLeast (endings className (lines ++ [line]) first) last ↔
      IsLeast (endings className lines first) last ∨
        last = lines.length + 1 ∧ MayEnd className (lines ++ [line]) first (lines.length + 1) ∧
          endings className lines first = ∅ :=
  isLeast_grown_iff (fun _ => mem_endings_concat)
    fun _ ends => Nat.lt_succ_of_le (MayEnd.le_length ends)

/-- Further lines leave the starts as they are. -/
theorem starts_append_iff (bounded : number ≤ lines.length) (more : List (List Char)) :
    Starts className (lines ++ more) owner number ↔ Starts className lines owner number := by
  induction more using List.reverseRecOn with
  | nil => rw [List.append_nil]
  | append_singleton more line inductionHypothesis =>
    rw [← List.append_assoc, starts_concat, inductionHypothesis, or_iff_left]
    intro ⟨isLast, _⟩
    rw [List.length_append] at isLast
    omega

/-- Further lines leave the end of a body as it is. -/
theorem isLeast_endings_append (ends : IsLeast (endings className lines first) last)
    (more : List (List Char)) : IsLeast (endings className (lines ++ more) first) last := by
  induction more using List.reverseRecOn with
  | nil => rwa [List.append_nil]
  | append_singleton more line inductionHypothesis =>
    rw [← List.append_assoc]
    exact isLeast_endings_concat.mpr (.inl inductionHypothesis)

/-- A body stays open when it may not end on the new line either. -/
theorem endings_concat_eq_empty_iff :
    endings className (lines ++ [line]) first = ∅ ↔
      endings className lines first = ∅ ∧
        ¬ MayEnd className (lines ++ [line]) first (lines.length + 1) := by
  simp only [Set.eq_empty_iff_forall_notMem, mem_endings_concat, not_or, not_and, forall_and,
    forall_eq]

end Growth

/-! ### Latest starts -/

section Latest

variable {className : List Char} {lines : List (List Char)} {line : List Char} {owner other : Owner}
  {first number : Nat}

/-- No body starts after the latest one. -/
structure Latest (className : List Char) (lines : List (List Char)) (owner : Owner)
    (first : Nat) : Prop where
  starts : Starts className lines owner first
  last : ∀ other number, Starts className lines other number → number ≤ first

/-- The latest start is one line. -/
theorem Latest.first_unique (latest : Latest className lines owner first)
    (alsoLatest : Latest className lines other number) : first = number :=
  Nat.le_antisymm (alsoLatest.last owner first latest.starts)
    (latest.last other number alsoLatest.starts)

/-- The latest start belongs to one body. -/
theorem Latest.owner_unique (latest : Latest className lines owner first)
    (alsoLatest : Latest className lines other number) : owner = other := by
  have same := latest.first_unique alsoLatest
  subst same
  exact latest.starts.owner_unique alsoLatest.starts

/-- The braces of a body up to the last of some lines. -/
def openBraces (lines : List (List Char)) (first : Nat) : Int :=
  ((lines.drop (first - 1)).map braceBalance).sum

/-- One more line changes the open braces by its balance. -/
theorem openBraces_concat (bounded : first ≤ lines.length + 1) :
    openBraces (lines ++ [line]) first = openBraces lines first + braceBalance line := by
  rw [openBraces, List.drop_append_of_le_length (by omega), List.map_append, List.sum_append]
  simp [openBraces]

/-- Balances add up to opening braces less closing ones. -/
theorem sum_braceBalance (lines : List (List Char)) :
    (lines.map braceBalance).sum =
      (lines.flatten.count '\x7b' : Int) - lines.flatten.count '\x7d' := by
  induction lines with
  | nil => rfl
  | cons line lines inductionHypothesis =>
    simp only [List.map_cons, List.sum_cons, inductionHypothesis, List.flatten_cons,
      List.count_append, braceBalance]
    omega

/-- Only the latest body can end on the last line, and it ends there when its braces balance and
the line closes one. -/
theorem mayEnd_last_iff (starts : Starts className (lines ++ [line]) owner first) :
    MayEnd className (lines ++ [line]) first (lines.length + 1) ↔
      Latest className (lines ++ [line]) owner first ∧
        openBraces (lines ++ [line]) first = 0 ∧ '\x7d' ∈ line := by
  have whole : extent (lines ++ [line]) first (lines.length + 1) =
      (lines ++ [line]).drop (first - 1) := by
    rw [extent, List.take_of_length_le (by simp)]
  have balanced : openBraces (lines ++ [line]) first = 0 ↔
      (extent (lines ++ [line]) first (lines.length + 1)).flatten.count '\x7b' =
        (extent (lines ++ [line]) first (lines.length + 1)).flatten.count '\x7d' := by
    rw [openBraces, whole, sum_braceBalance]
    omega
  constructor
  · intro ends
    refine ⟨⟨starts, fun other number otherStarts => ?_⟩, balanced.mpr ends.balanced, ?_⟩
    · by_contra after
      have before := ends.unbroken other number otherStarts (by omega)
      have bounded := otherStarts.le_concat
      omega
    · obtain ⟨-, last, found, brace⟩ := ends.closed
      have same : line = last := by simpa using found
      exact same ▸ brace
  · intro ⟨latest, isBalanced, brace⟩
    refine ⟨starts.le_concat, fun other number otherStarts after => ?_, balanced.mp isBalanced,
      mem_numbersWhere_concat.mpr (.inr ⟨rfl, brace⟩)⟩
    have before := latest.last other number otherStarts
    omega

end Latest

/-! ### What a scan knows -/

/-- Numbering goes on behind the lines in front. -/
theorem numbered_append (start : Nat) (lines others : List (List Char)) :
    numbered start (lines ++ others) =
      numbered start lines ++ numbered (start + lines.length) others := by
  induction lines generalizing start with
  | nil => rfl
  | cons line lines inductionHypothesis =>
    rw [List.cons_append, numbered, inductionHypothesis, numbered, List.cons_append,
      List.length_cons, Nat.add_assoc, Nat.add_comm 1]

/-- One more line is one more step of the scan. -/
theorem scanned_concat (className : List Char) (lines : List (List Char)) (line : List Char) :
    scanned className (lines ++ [line]) =
      (scanned className lines).step className (lines.length + 1, line) := by
  rw [scanned, numbered_append, List.foldl_append, Nat.add_comm]
  rfl

/-- What a scan knows of the ends of bodies when it has seen the starts on some lines and has
counted the braces of some lines. -/
structure Tracks (className : List Char) (seen counted : List (List Char)) (scan : Scan) :
    Prop where
  ended : ∀ owner place, scan.symbols.place? owner = some place →
    ∀ last, place.endLine = some last ↔ IsLeast (endings className counted place.line) last
  opened : ∀ owner, scan.open? = some owner ↔
    ∃ first, Latest className seen owner first ∧ endings className counted first = ∅
  depth : ∀ owner first, scan.open? = some owner → Starts className seen owner first →
    scan.depth = openBraces counted first

section Step

variable {className : List Char} {lines : List (List Char)} {line : List Char} {scan : Scan}

/-- A symbol is not known when its body has not started. -/
theorem unknown_iff
    (known : ∀ owner first, scan.symbols.line? owner = some first ↔
      Starts className lines owner first) (owner : Owner) :
    scan.symbols.place? owner = none ↔ ∀ first, ¬ Starts className lines owner first := by
  simp only [← known, ← Option.eq_none_iff_forall_ne_some, ImplementationSymbols.line?,
    Option.map_eq_none_iff]

/-- A line that starts no body leaves the starts as they were. -/
theorem starts_concat_of_none
    (known : ∀ owner first, scan.symbols.line? owner = some first ↔
      Starts className lines owner first)
    (unstarted : starts className scan.symbols line = none) (owner : Owner) (number : Nat) :
    Starts className (lines ++ [line]) owner number ↔ Starts className lines owner number := by
  rw [starts_concat, or_iff_left]
  intro ⟨_, defined, isNew⟩
  rw [starts_eq_some_iff.mpr ⟨defined, (unknown_iff known owner).mpr isNew⟩] at unstarted
  contradiction

/-- The latest start depends only on where bodies start. -/
theorem Latest.congr {other : List (List Char)}
    (same : ∀ owner number, Starts className other owner number ↔
      Starts className lines owner number) (owner : Owner) (first : Nat) :
    Latest className other owner first ↔ Latest className lines owner first := by
  constructor
  · intro ⟨starts, last⟩
    exact ⟨(same owner first).mp starts, fun next number nextStarts =>
      last next number ((same next number).mpr nextStarts)⟩
  · intro ⟨starts, last⟩
    exact ⟨(same owner first).mpr starts, fun next number nextStarts =>
      last next number ((same next number).mp nextStarts)⟩

/-- A line that starts a body opens it, and the one before it is given up. -/
theorem Tracks.begin (tracks : Tracks className lines lines scan)
    (known : ∀ owner first, scan.symbols.line? owner = some first ↔
      Starts className lines owner first) :
    Tracks className (lines ++ [line]) lines
      (scan.begin className (lines.length + 1, line)) := by
  unfold Scan.begin
  cases started : starts className scan.symbols line with
  | none =>
    have same := starts_concat_of_none known started
    refine ⟨tracks.ended, fun owner => ?_, fun owner first isOpen isStart => ?_⟩
    · simp only [Latest.congr same]
      exact tracks.opened owner
    · exact tracks.depth owner first isOpen ((same owner first).mp isStart)
  | some owner =>
    obtain ⟨defined, unknown⟩ := starts_eq_some_iff.mp started
    have isStart : Starts className (lines ++ [line]) owner (lines.length + 1) :=
      starts_concat.mpr (.inr ⟨rfl, defined, (unknown_iff known owner).mp unknown⟩)
    have latest : Latest className (lines ++ [line]) owner (lines.length + 1) :=
      ⟨isStart, fun _ _ otherStarts => otherStarts.le_concat⟩
    have unended : endings className lines (lines.length + 1) = ∅ := by
      apply Set.eq_empty_of_forall_notMem
      intro last ends
      have bounded := MayEnd.le_length ends
      have ordered := ends.ordered
      omega
    refine ⟨fun other place found last => ?_, fun other => ?_, fun other first isOpen starts => ?_⟩
    · rw [place?_recordStart _ _ unknown] at found
      split at found
      · obtain rfl := Option.some.inj found
        simp [unended, IsLeast]
      · exact tracks.ended other place found last
    · constructor
      · intro same
        obtain rfl := Option.some.inj same
        exact ⟨lines.length + 1, latest, unended⟩
      · intro ⟨first, otherLatest, _⟩
        rw [latest.owner_unique otherLatest]
    · obtain rfl := Option.some.inj isOpen
      obtain rfl := isStart.unique starts
      simp [openBraces]

/-- A symbol whose body does not end on the line keeps its end. Only the open body can end there. -/
theorem Tracks.kept (tracks : Tracks className (lines ++ [line]) lines scan) {owner : Owner}
    {place : Place} (starts : Starts className (lines ++ [line]) owner place.line)
    (found : scan.symbols.place? owner = some place)
    (stays : scan.open? = some owner →
      ¬ MayEnd className (lines ++ [line]) place.line (lines.length + 1)) (last : Nat) :
    place.endLine = some last ↔
      IsLeast (endings className (lines ++ [line]) place.line) last := by
  rw [tracks.ended owner place found last, isLeast_endings_concat, or_iff_left]
  intro ⟨_, ends, unended⟩
  have latest := ((mayEnd_last_iff starts).mp ends).1
  exact stays ((tracks.opened owner).mpr ⟨place.line, latest, unended⟩) ends

variable (tracks : Tracks className (lines ++ [line]) lines scan)
  (started : ∀ owner place, scan.symbols.place? owner = some place →
    Starts className (lines ++ [line]) owner place.line)

include tracks started

/-- No body is open, so the line ends none. -/
theorem Tracks.idle (unopened : scan.open? = none) :
    Tracks className (lines ++ [line]) (lines ++ [line]) scan := by
  have isClosed (owner : Owner) : scan.open? ≠ some owner := by simp [unopened]
  refine ⟨fun owner place found => ?_, fun owner => ⟨fun isOpen => ?_, ?_⟩,
    fun owner first isOpen => absurd isOpen (isClosed owner)⟩
  · exact tracks.kept (started owner place found) found fun isOpen => absurd isOpen (isClosed owner)
  · exact absurd isOpen (isClosed owner)
  · intro ⟨first, latest, unended⟩
    exact (tracks.opened owner).mpr ⟨first, latest, (endings_concat_eq_empty_iff.mp unended).1⟩

variable {owner : Owner} {first : Nat} (opened : scan.open? = some owner)
  (latest : Latest className (lines ++ [line]) owner first)
  (unended : endings className lines first = ∅)

include opened latest unended

/-- The open body ends on the line. -/
theorem Tracks.close (ends : MayEnd className (lines ++ [line]) first (lines.length + 1))
    (depth : Int) :
    Tracks className (lines ++ [line]) (lines ++ [line])
      ⟨recordEnd scan.symbols (lines.length + 1) owner, none, depth⟩ := by
  refine ⟨fun other place found last => ?_, fun other => ⟨nofun, ?_⟩, nofun⟩
  · rw [place?_recordEnd] at found
    obtain ⟨before, foundBefore, rfl⟩ := Option.map_eq_some_iff.mp found
    have starts := started other before foundBefore
    by_cases same : owner = other
    · subst same
      obtain rfl := starts.unique latest.starts
      rw [if_pos rfl, isLeast_endings_concat, unended, Option.some.injEq]
      simp [IsLeast, ends, eq_comm]
    · rw [if_neg same]
      apply tracks.kept starts foundBefore
      exact fun otherOpen => absurd (Option.some.inj (opened.symm.trans otherOpen)) same
  · intro ⟨otherFirst, otherLatest, otherUnended⟩
    rw [← latest.first_unique otherLatest] at otherUnended
    exact absurd ends (endings_concat_eq_empty_iff.mp otherUnended).2

/-- The open body goes on behind the line. -/
theorem Tracks.stay (goesOn : ¬ MayEnd className (lines ++ [line]) first (lines.length + 1)) :
    Tracks className (lines ++ [line]) (lines ++ [line])
      ⟨scan.symbols, some owner, openBraces (lines ++ [line]) first⟩ := by
  refine ⟨fun other place found => ?_, fun other => ?_,
    fun other otherFirst otherOpen otherStarts => ?_⟩
  · have starts := started other place found
    apply tracks.kept starts found
    intro otherOpen
    obtain rfl := Option.some.inj (opened.symm.trans otherOpen)
    rwa [starts.unique latest.starts]
  · constructor
    · intro same
      obtain rfl := Option.some.inj same
      exact ⟨first, latest, endings_concat_eq_empty_iff.mpr ⟨unended, goesOn⟩⟩
    · intro ⟨otherFirst, otherLatest, _⟩
      exact congrArg some (latest.owner_unique otherLatest)
  · obtain rfl := Option.some.inj otherOpen
    rw [← latest.starts.unique otherStarts]

omit opened latest unended in
/-- A line is counted for the body that is open, and may end it. -/
theorem Tracks.count :
    Tracks className (lines ++ [line]) (lines ++ [line])
      (scan.count (lines.length + 1, line)) := by
  unfold Scan.count
  cases opened : scan.open? with
  | none => exact tracks.idle started opened
  | some owner =>
    obtain ⟨first, latest, unended⟩ := (tracks.opened owner).mp opened
    have depth : scan.depth + braceBalance line = openBraces (lines ++ [line]) first := by
      rw [openBraces_concat latest.starts.le_concat, tracks.depth owner first opened latest.starts]
    have ends := mayEnd_last_iff latest.starts
    simp only [depth]
    split
    · next closes =>
      rw [Bool.and_eq_true, beq_iff_eq, List.contains_iff_mem] at closes
      exact tracks.close started opened latest unended (ends.mpr ⟨latest, closes⟩) _
    · next stays =>
      rw [Bool.and_eq_true, beq_iff_eq, List.contains_iff_mem] at stays
      exact tracks.stay started opened latest unended fun here => stays (ends.mp here).2

end Step

/-- The scan tracks every body, by induction on the lines. -/
theorem tracks_scanned (className : List Char) (lines : List (List Char)) :
    Tracks className lines lines (scanned className lines) := by
  induction lines using List.reverseRecOn with
  | nil =>
    have unstarted (owner : Owner) (first : Nat) : ¬ Starts className [] owner first := by
      intro starts
      have positive := starts.1.1
      have bounded := starts.le_length
      rw [List.length_nil] at bounded
      omega
    refine ⟨fun owner place found => ?_, fun owner => ⟨nofun, ?_⟩, nofun⟩
    · cases owner <;> contradiction
    · intro ⟨first, latest, _⟩
      exact absurd latest.starts (unstarted owner first)
  | append_singleton lines line inductionHypothesis =>
    rw [scanned_concat, Scan.step]
    apply (inductionHypothesis.begin (line?_scanned_eq_some_iff className lines)).count
    intro owner place found
    rw [Starts, ← line?_scanned_eq_some_iff, scanned_concat, Scan.step, line?_count]
    exact congrArg (Option.map Place.line) found

/-! ### Extents -/

/-- An implementation has one symbol for each line that starts a body. The symbol ends on the first
line on which its body may end. So the extents of bodies have no line in common. -/
theorem readImplementation_extents (className : String) (text : List Char) :
    let symbols := readImplementation className text
    let starts := Starts className.toList (lines text)
    (∀ owner place, symbols.place? owner = some place ↔
      starts owner place.line ∧ ∀ last, place.endLine = some last ↔
        IsLeast (endings className.toList (lines text) place.line) last) ∧
    (∀ owner number, starts owner number →
      ∃! recorded, ∃ place, symbols.place? recorded = some place ∧ place.line = number) ∧
    ∀ owner other place otherPlace, symbols.place? owner = some place →
      symbols.place? other = some otherPlace → owner ≠ other →
        place.line ≠ otherPlace.line ∧ ∀ last, place.endLine = some last →
          ¬ (place.line ≤ otherPlace.line ∧ otherPlace.line ≤ last) ∧
          ∀ otherLast, otherPlace.endLine = some otherLast →
            last < otherPlace.line ∨ otherLast < place.line := by
  intro symbols starts
  have tracks := tracks_scanned className.toList (lines text)
  have known {owner : Owner} {number : Nat} :
      symbols.line? owner = some number ↔ starts owner number :=
    line?_scanned_eq_some_iff className.toList (lines text) owner number
  have started {owner : Owner} {place : Place} (found : symbols.place? owner = some place) :
      starts owner place.line := known.mp (congrArg (Option.map Place.line) found)
  have ended {owner : Owner} {place : Place} (found : symbols.place? owner = some place) :=
    tracks.ended owner place found
  refine ⟨fun owner place => ⟨fun found => ⟨started found, ended found⟩, ?_⟩,
    fun owner number isStart => ?_, fun owner other place otherPlace found otherFound apart => ?_⟩
  · intro ⟨isStart, isEnd⟩
    obtain ⟨recorded, found, sameLine⟩ := Option.map_eq_some_iff.mp (known.mpr isStart)
    have sameEnd : recorded.endLine = place.endLine := by
      apply Option.ext
      intro last
      rw [isEnd last, ended found last, sameLine]
    have same : recorded = place := by
      cases recorded
      cases place
      exact congrArg₂ Place.mk sameLine sameEnd
    exact same ▸ found
  · obtain ⟨place, found, sameLine⟩ := Option.map_eq_some_iff.mp (known.mpr isStart)
    refine ⟨owner, ⟨place, found, sameLine⟩, ?_⟩
    intro other ⟨otherPlace, otherFound, otherLine⟩
    exact Starts.owner_unique (otherLine ▸ started otherFound) isStart
  · have differ : place.line ≠ otherPlace.line := fun same =>
      apart (Starts.owner_unique (same ▸ started found) (started otherFound))
    refine ⟨differ, fun last isEnd => ?_⟩
    have ends := ((ended found last).mp isEnd).1
    have before := ends.unbroken other otherPlace.line (started otherFound)
    refine ⟨fun ⟨above, below⟩ => ?_, fun otherLast otherEnd => ?_⟩
    · have later := before (Nat.lt_of_le_of_ne above differ)
      omega
    · have otherEnds := ((ended otherFound otherLast).mp otherEnd).1
      rcases Nat.lt_or_gt_of_ne differ with first | second
      · exact .inl (before first)
      · exact .inr (otherEnds.unbroken owner place.line (started found) second)

/-- A constructor whose body is cut off by a method with a nested body, and a second constructor. -/
def nestedImplementation : List Char :=
  ("A::A() \x7b\n  if (b) \x7b \x7d\nvoid A::Run(int x) \x7b\n  while (x) \x7b\n  \x7d\n\x7d\n" ++
    "A::A() \x7b \x7d\n").toList

/-- A constructor that is interrupted has no end, and the method behind it has one. -/
theorem readImplementation_extents_nested :
    (∀ last, ¬ IsLeast (endings "A".toList (lines nestedImplementation) 1) last) ∧
      IsLeast (endings "A".toList (lines nestedImplementation) 3) 6 := by
  have constructed : (readImplementation "A" nestedImplementation).place? .constructor =
      some ⟨1, none⟩ := by
    decide +kernel
  have defined : (readImplementation "A" nestedImplementation).place? (.method "Run") =
      some ⟨3, some 6⟩ := by
    decide +kernel
  have recorded := (readImplementation_extents "A" nestedImplementation).1
  refine ⟨fun last ends => ?_, (((recorded _ _).mp defined).2 6).mp rfl⟩
  exact nomatch (((recorded _ _).mp constructed).2 last).mpr ends

end InterfaceAudit.Native
