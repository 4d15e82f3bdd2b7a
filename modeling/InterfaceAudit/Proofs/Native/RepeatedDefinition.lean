import InterfaceAudit.Proofs.Native.Extent

/-!
Repeated definitions.
A block of lines whose braces balance and that starts no body only moves the depth of the open body
to and fro. Unless that body ends on a line of the block, the symbols are those of the text in which
the lines of the block are empty.
-/

namespace InterfaceAudit.Native

open Text

variable {className : List Char} {scan : Scan}

/-! ### Lines that start and end nothing -/

/-- The braces of some lines count for the body that is open. -/
def Scan.deepened (scan : Scan) (braces : Int) : Scan :=
  { scan with depth := scan.depth + if scan.open?.isSome then braces else 0 }

theorem Scan.deepened_zero (scan : Scan) : scan.deepened 0 = scan := by
  simp [deepened]

/-- The braces of two lines add up. -/
theorem Scan.deepened_deepened (scan : Scan) (first second : Int) :
    (scan.deepened first).deepened second = scan.deepened (first + second) := by
  unfold deepened
  split <;> simp [Int.add_assoc]

/-- The open body ends on a line. -/
def Scan.EndsOn (scan : Scan) (line : List Char) : Prop :=
  scan.open? ≠ none ∧ scan.depth + braceBalance line = 0 ∧ '\x7d' ∈ line

/-- A line that starts and ends nothing only changes the depth. -/
theorem Scan.step_of_unended {line : Nat × List Char}
    (unstarted : starts className scan.symbols line.2 = none) (unended : ¬ scan.EndsOn line.2) :
    scan.step className line = scan.deepened (braceBalance line.2) := by
  have began : scan.begin className line = scan := by rw [begin, unstarted]
  rw [step, began]
  obtain ⟨symbols, opened, depth⟩ := scan
  cases opened with
  | none => simp [count, deepened]
  | some owner =>
    have apart : ¬ (depth + braceBalance line.2 = 0 ∧ '\x7d' ∈ line.2) :=
      fun closes => unended ⟨Option.some_ne_none owner, closes⟩
    simp [count, deepened, apart]

/-- The open body ends on none of some lines. -/
def Scan.Outlasts (scan : Scan) : List (List Char) → Prop
  | [] => True
  | line :: block => ¬ scan.EndsOn line ∧ (scan.deepened (braceBalance line)).Outlasts block

/-- A block that starts and ends no body changes no more than a depth. -/
theorem Scan.foldl_step_of_outlasts {block : List (List Char)} (start : Nat)
    (unstarted : ∀ line ∈ block, starts className scan.symbols line = none)
    (outlasts : scan.Outlasts block) :
    (numbered start block).foldl (step className) scan =
      scan.deepened (block.map braceBalance).sum := by
  induction block generalizing scan start with
  | nil => exact scan.deepened_zero.symm
  | cons line block inductionHypothesis =>
    obtain ⟨first, others⟩ := List.forall_mem_cons.mp unstarted
    have later : (numbered (start + 1) block).foldl (step className)
        (scan.deepened (braceBalance line)) = _ :=
      inductionHypothesis (start + 1) others outlasts.2
    rw [numbered, List.foldl_cons, step_of_unended first outlasts.1, later, deepened_deepened,
      List.map_cons, List.sum_cons]

/-! ### Ends of bodies in a block -/

/-- A body keeps a brace open on every line of a block, or no body is open. -/
def Scan.KeepsOpen (scan : Scan) (block : List (List Char)) : Prop :=
  scan.open? ≠ none →
    ∀ count ≤ block.length, 0 < scan.depth + ((block.take count).map braceBalance).sum

instance (scan : Scan) (block : List (List Char)) : Decidable (scan.KeepsOpen block) :=
  inferInstanceAs (Decidable (_ → _))

/-- A body whose depth stays positive does not end in the block. -/
theorem Scan.KeepsOpen.outlasts {block : List (List Char)} (keeps : scan.KeepsOpen block) :
    scan.Outlasts block := by
  induction block generalizing scan with
  | nil => trivial
  | cons line block inductionHypothesis =>
    refine ⟨fun ⟨opened, balanced, _⟩ => ?_, inductionHypothesis fun opened count within => ?_⟩
    · have positive := keeps opened 1 (by simp)
      simp only [List.take_one, List.head?_cons, Option.toList_some, List.map_cons, List.map_nil,
        List.sum_singleton] at positive
      omega
    · have positive := keeps opened (count + 1) (Nat.succ_le_succ within)
      have isOpen : scan.open?.isSome = true := Option.isSome_iff_ne_none.mpr opened
      simp only [List.take_succ_cons, List.map_cons, List.sum_cons] at positive
      simp only [deepened, isOpen, if_true]
      omega

/-- Where the open body ends on the next line of some lines, a symbol is recorded with that end, and
keeps it. -/
theorem exists_ended_of_endsOn {lines : List (List Char)} {line : List Char}
    (unstarted : starts className (scanned className lines).symbols line = none)
    (ends : (scanned className lines).EndsOn line) (more : List (List Char)) :
    ∃ owner place, (scanned className (lines ++ [line] ++ more)).symbols.place? owner = some place ∧
      place.endLine = some (lines.length + 1) := by
  have tracks := tracks_scanned className lines
  obtain ⟨isOpen, balanced, closes⟩ := ends
  obtain ⟨owner, opened⟩ := Option.ne_none_iff_exists'.mp isOpen
  obtain ⟨first, latest, unended⟩ := (tracks.opened owner).mp opened
  -- The line starts nothing, so the open body is the latest one behind it as well.
  have same := starts_concat_of_none (line?_scanned_eq_some_iff className lines) unstarted
  have stillLatest := (Latest.congr same owner first).mpr latest
  have depth : openBraces (lines ++ [line]) first = 0 := by
    rw [openBraces_concat stillLatest.starts.le_concat,
      ← tracks.depth owner first opened latest.starts]
    exact balanced
  have isEnd := (mayEnd_last_iff stillLatest.starts).mpr ⟨stillLatest, depth, closes⟩
  have least := isLeast_endings_append
    (isLeast_endings_concat.mpr (.inr ⟨rfl, isEnd, unended⟩)) more
  have starts : Starts className (lines ++ [line] ++ more) owner first :=
    (starts_append_iff stillLatest.starts.le_length more).mpr stillLatest.starts
  obtain ⟨place, found, sameLine⟩ :=
    Option.map_eq_some_iff.mp ((line?_scanned_eq_some_iff className _ owner first).mpr starts)
  subst sameLine
  exact ⟨owner, place, found, ((tracks_scanned className _).ended owner place found _).mpr least⟩

/-- The open body ends on no line of a block when no recorded body does. -/
theorem outlasts_of_ends {front block back : List (List Char)}
    (unstarted : ∀ line ∈ block, starts className (scanned className front).symbols line = none)
    (stays : ∀ owner place last,
      (scanned className (front ++ block ++ back)).symbols.place? owner = some place →
        place.endLine = some last → last ≤ front.length ∨ front.length + block.length < last) :
    (scanned className front).Outlasts block := by
  -- Each line that is passed joins the front, which carries the state of the scan.
  induction block generalizing front with
  | nil => trivial
  | cons line block inductionHypothesis =>
    obtain ⟨first, others⟩ := List.forall_mem_cons.mp unstarted
    have regrouped : front ++ line :: block ++ back = front ++ [line] ++ (block ++ back) := by simp
    have unended : ¬ (scanned className front).EndsOn line := by
      intro ends
      obtain ⟨owner, place, found, isEnd⟩ := exists_ended_of_endsOn first ends (block ++ back)
      rw [regrouped] at stays
      rcases stays owner place _ found isEnd with before | behind
      · omega
      · rw [List.length_cons] at behind
        omega
    have next : scanned className (front ++ [line]) =
        (scanned className front).deepened (braceBalance line) := by
      rw [scanned_concat, Scan.step_of_unended first unended]
    have later : (scanned className (front ++ [line])).Outlasts block := by
      apply inductionHypothesis
      · rw [next]
        exact others
      · intro owner place last found isEnd
        rw [List.append_assoc _ block back, ← regrouped] at found
        have outside := stays owner place last found isEnd
        simp only [List.length_append, List.length_cons, List.length_nil] at outside ⊢
        omega
    exact ⟨unended, next ▸ later⟩

/-! ### Empty lines -/

/-- Some lines with a block of empty ones. -/
def blanked (block : List (List Char)) : List (List Char) := block.map fun _ => []

/-- An empty line defines nothing. -/
theorem not_qualifiesName_nil (className : List Char) : ¬ QualifiesName className [] := by
  rintro (⟨front, _, gap, rest, split, -, -, rfl⟩ | ⟨name, front, _, split, -, ⟨call, -, rfl⟩, -⟩)
  · simp at split
  · simp at split

/-- Empty lines end nothing. -/
theorem outlasts_blanked (scan : Scan) (block : List (List Char)) :
    scan.Outlasts (blanked block) := by
  induction block generalizing scan with
  | nil => trivial
  | cons line block inductionHypothesis =>
    exact ⟨fun ⟨_, _, closes⟩ => List.not_mem_nil closes, inductionHypothesis _⟩

/-- Empty lines have no braces. -/
theorem sum_braceBalance_blanked (block : List (List Char)) :
    ((blanked block).map braceBalance).sum = 0 := by
  induction block with
  | nil => rfl
  | cons line block inductionHypothesis => simp [blanked, braceBalance]

/-- A block whose braces balance and that starts and ends no body could as well be empty. -/
theorem scanned_blanked {front block back : List (List Char)}
    (unstarted : ∀ line ∈ block, starts className (scanned className front).symbols line = none)
    (balanced : block.flatten.count '\x7b' = block.flatten.count '\x7d')
    (outlasts : (scanned className front).Outlasts block) :
    scanned className (front ++ blanked block ++ back) =
      scanned className (front ++ block ++ back) := by
  have sum : (block.map braceBalance).sum = 0 := by
    rw [sum_braceBalance]
    omega
  have sameLength : (blanked block).length = block.length := List.length_map _
  have unstartedBlank : ∀ line ∈ blanked block,
      starts className (scanned className front).symbols line = none := by
    intro line member
    obtain ⟨_, -, rfl⟩ := List.mem_map.mp member
    exact starts_eq_none_of_unqualified (not_qualifiesName_nil className) _
  simp only [scanned, numbered_append, List.foldl_append, List.length_append, sameLength]
  congr 1
  refine (Scan.foldl_step_of_outlasts _ unstartedBlank (outlasts_blanked _ block)).trans ?_
  rw [sum_braceBalance_blanked, ← sum]
  exact (Scan.foldl_step_of_outlasts _ unstarted outlasts).symm

/-! ### Blocks that repeat a definition -/

/-- A block repeats a definition of a text: its first line defines a symbol that is recorded on an
earlier line, no other line of it qualifies a name, and its braces balance. -/
structure RepeatsDefinition (className : String) (text : List Char) (front : List (List Char))
    (line : List Char) (others : List (List Char)) : Prop where
  recorded : ∃ owner : Owner, owner.DefinedOn className.toList line ∧
    ∃ first, (readImplementation className text).line? owner = some first ∧ first ≤ front.length
  unqualified : ∀ other ∈ others, ¬ QualifiesName className.toList other
  balanced : (line :: others).flatten.count '\x7b' = (line :: others).flatten.count '\x7d'
  closes : '\x7d' ∈ (line :: others).flatten

/-- A repeated definition starts nothing, and neither do the lines behind it. -/
theorem RepeatsDefinition.unstarted {className : String} {text line : List Char}
    {front others back : List (List Char)}
    (repeats : RepeatsDefinition className text front line others)
    (split : lines text = front ++ line :: others ++ back) :
    ∀ other ∈ line :: others,
      starts className.toList (scanned className.toList front).symbols other = none := by
  obtain ⟨owner, defined, first, recorded, before⟩ := repeats.recorded
  have isStart : Starts className.toList (lines text) owner first :=
    (line?_scanned_eq_some_iff className.toList (lines text) owner first).mp recorded
  rw [split, List.append_assoc, starts_append_iff before, Starts, ← line?_scanned_eq_some_iff]
    at isStart
  have known : (scanned className.toList front).symbols.place? owner ≠ none := by
    intro unknown
    rw [ImplementationSymbols.line?, unknown] at isStart
    contradiction
  refine List.forall_mem_cons.mpr ⟨starts_eq_none_of_known defined known, fun other member => ?_⟩
  exact starts_eq_none_of_unqualified (repeats.unqualified other member) _

/-- The lines of a repeated definition could as well be empty if no recorded body ends on one of
them, and so if the body that is open in front of them keeps a brace open on all of them. -/
theorem readImplementation_repeated (className : String) {text other line : List Char}
    {front others back : List (List Char)} (split : lines text = front ++ line :: others ++ back)
    (emptied : lines other = front ++ blanked (line :: others) ++ back)
    (repeats : RepeatsDefinition className text front line others)
    (undisturbed : (∀ owner place last,
        (readImplementation className text).place? owner = some place →
          place.endLine = some last →
            last ≤ front.length ∨ front.length + (line :: others).length < last) ∨
      (scanned className.toList front).KeepsOpen (line :: others)) :
    readImplementation className other = readImplementation className text := by
  have unstarted := repeats.unstarted split
  have outlasts : (scanned className.toList front).Outlasts (line :: others) := by
    rcases undisturbed with stays | keeps
    · apply outlasts_of_ends unstarted
      rw [← split]
      exact stays
    · exact keeps.outlasts
  have same : scanned className.toList (front ++ blanked (line :: others) ++ back) = _ :=
    scanned_blanked unstarted repeats.balanced outlasts
  rw [← split, ← emptied] at same
  exact congrArg Scan.symbols same

/-- A method, and the head of another one. -/
def beforeCall : List (List Char) :=
  ["void A::Run() \x7b".toList, "\x7d".toList, "void A::Stop() \x7b".toList]

/-- The other method calls the first one in front of a nested body. -/
def nestedCall : List Char :=
  ("void A::Run() \x7b\n\x7d\nvoid A::Stop() \x7b\n  A::Run(); if (b) \x7b\n  \x7d\n" ++
    "\x7d\n").toList

/-- The other method calls the first one on its last line. -/
def lastCall : List Char :=
  ("void A::Run() \x7b\n\x7d\nvoid A::Stop() \x7b\n  A::Run(); \x7d\nvoid Help() \x7b\n" ++
    "\x7d\n").toList

/-- Both implementations without the call and the line behind it. -/
def uncalled : List Char :=
  "void A::Run() \x7b\n\x7d\nvoid A::Stop() \x7b\n\n\n\x7d\n".toList

/-- A call inside another body, with a balanced block behind it, counts as empty lines. -/
theorem readImplementation_repeated_nestedCall :
    let line := "  A::Run(); if (b) \x7b".toList
    let others := ["  \x7d".toList]
    RepeatsDefinition "A" nestedCall beforeCall line others ∧
      (scanned "A".toList beforeCall).KeepsOpen (line :: others) ∧
      readImplementation "A" uncalled = readImplementation "A" nestedCall := by
  intro line others
  have defined : Owner.DefinedOn "A".toList (.method "Run") line :=
    (definedOn_eq_true_iff ..).mp (by decide +kernel)
  have repeats : RepeatsDefinition "A" nestedCall beforeCall line others :=
    ⟨⟨_, defined, 1, by decide +kernel, by decide⟩, by decide +kernel, by decide, by decide⟩
  have keeps : (scanned "A".toList beforeCall).KeepsOpen (line :: others) := by decide +kernel
  have split : lines nestedCall = beforeCall ++ line :: others ++ ["\x7d".toList] := by
    decide +kernel
  have emptied : lines uncalled = beforeCall ++ blanked (line :: others) ++ ["\x7d".toList] := by
    decide +kernel
  exact ⟨repeats, keeps, readImplementation_repeated "A" split emptied repeats (.inr keeps)⟩

/-- The braces of the call's line and of the next one balance, and yet the calling method ends
there. -/
theorem readImplementation_lastCall :
    let line := "  A::Run(); \x7d".toList
    let others := ["void Help() \x7b".toList]
    let back := ["\x7d".toList]
    lines lastCall = beforeCall ++ line :: others ++ back ∧
      lines uncalled = beforeCall ++ blanked (line :: others) ++ back ∧
      RepeatsDefinition "A" lastCall beforeCall line others ∧
      readImplementation "A" uncalled ≠ readImplementation "A" lastCall := by
  intro line others back
  have defined : Owner.DefinedOn "A".toList (.method "Run") line :=
    (definedOn_eq_true_iff ..).mp (by decide +kernel)
  have repeats : RepeatsDefinition "A" lastCall beforeCall line others :=
    ⟨⟨_, defined, 1, by decide +kernel, by decide⟩, by decide +kernel, by decide, by decide⟩
  refine ⟨by decide +kernel, by decide +kernel, repeats, fun same => ?_⟩
  have sameStop := congrArg (fun symbols => symbols.methods.get? "Stop") same
  revert sameStop
  decide +kernel

end InterfaceAudit.Native
