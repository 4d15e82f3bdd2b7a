import InterfaceAudit.Proofs.Native.Extent

/-!
Heads of native definitions.
The head of a definition may take several lines. Its body is recorded up to its last line, unless a
line of the head has a closing brace: then the first such line counts as the end.
-/

namespace InterfaceAudit.Native

open Text

/-! ### Lines of an extent -/

/-- A line between the first and the last one belongs to the extent. -/
theorem mem_extent {lines : List (List Char)} {line : List Char} {first last number : Nat}
    (found : lines[number - 1]? = some line) (positive : 1 ≤ first) (after : first ≤ number)
    (before : number ≤ last) : line ∈ extent lines first last := by
  refine List.mem_iff_getElem?.mpr ⟨number - first, ?_⟩
  rw [extent, List.getElem?_drop, show first - 1 + (number - first) = number - 1 by omega,
    List.getElem?_take, if_pos (by omega), found]

theorem extent_subset {lines : List (List Char)} {first last further : Nat}
    (before : last ≤ further) : extent lines first last ⊆ extent lines first further :=
  ((List.take_prefix_take_left before).drop (first - 1)).subset

/-- Lines that are balanced one by one are balanced together. -/
theorem balanced_of_each {lines : List (List Char)}
    (each : ∀ line ∈ lines, line.count '\x7b' = line.count '\x7d') :
    lines.flatten.count '\x7b' = lines.flatten.count '\x7d' := by
  rw [List.count_flatten, List.count_flatten, List.map_congr_left each]

/-- Sets that agree up to a common member have the same least member. -/
theorem isLeast_congr {first second : Set Nat} {bound number : Nat}
    (agree : ∀ other ≤ bound, other ∈ first ↔ other ∈ second) (member : bound ∈ first) :
    IsLeast first number ↔ IsLeast second number := by
  have transfer {one two : Set Nat} (agree : ∀ other ≤ bound, other ∈ one ↔ other ∈ two)
      (member : bound ∈ one) (least : IsLeast one number) : IsLeast two number := by
    have within := least.2 member
    refine ⟨(agree number within).mp least.1, fun other inTwo => ?_⟩
    rcases Nat.le_total other bound with below | above
    · exact least.2 ((agree other below).mpr inTwo)
    · exact within.trans above
  exact ⟨transfer agree member, transfer (fun other below => (agree other below).symm)
    ((agree bound le_rfl).mp member)⟩

/-! ### Heads and bodies -/

/-- A definition has its head in front of the line that opens its body. On each line of the head as
many braces open as close; the body keeps a brace open up to its last line, which closes the last
one; and no other line up to there qualifies a name. -/
structure HeadedBody (className : List Char) (lines : List (List Char))
    (first opening last : Nat) : Prop where
  opens : first ≤ opening
  closesAfter : opening ≤ last
  head : ∀ line ∈ extent lines first (opening - 1), line.count '\x7b' = line.count '\x7d'
  body : ∀ number < last, opening ≤ number →
    (extent lines first number).flatten.count '\x7d' <
      (extent lines first number).flatten.count '\x7b'
  balanced : (extent lines first last).flatten.count '\x7b' =
    (extent lines first last).flatten.count '\x7d'
  closes : last ∈ numbersWhere lines ('\x7d' ∈ ·)
  alone : ∀ line ∈ extent lines (first + 1) last, ¬ QualifiesName className line

variable {className : List Char} {lines : List (List Char)} {first opening last number : Nat}

/-- No other body starts inside of a body with its head. -/
theorem HeadedBody.unbroken (headed : HeadedBody className lines first opening last)
    (within : number ≤ last) (owner : Owner) (next : Nat)
    (starts : Starts className lines owner next) (after : first < next) : number < next := by
  by_contra before
  obtain ⟨-, line, found, defined⟩ := starts.1
  exact headed.alone line (mem_extent found (by omega) after (by omega)) defined.qualifiesName

/-- The body may end on its last line, or on a line of the head with a closing brace. -/
theorem HeadedBody.mayEnd_iff (headed : HeadedBody className lines first opening last)
    (within : number ≤ last) :
    MayEnd className lines first number ↔
      number = last ∨
        first ≤ number ∧ number < opening ∧ number ∈ numbersWhere lines ('\x7d' ∈ ·) := by
  constructor
  · intro ends
    by_cases inHead : number < opening
    · exact .inr ⟨ends.ordered, inHead, ends.closed⟩
    -- From the opening line on, the braces balance on the last line only.
    · by_contra neither
      have isOpen := headed.body number (by omega) (by omega)
      have isBalanced := ends.balanced
      omega
  · rintro (isLast | ⟨after, inHead, closes⟩)
    · subst isLast
      exact ⟨headed.opens.trans headed.closesAfter, headed.unbroken le_rfl, headed.balanced,
        headed.closes⟩
    · refine ⟨after, headed.unbroken within, balanced_of_each fun line member => ?_, closes⟩
      exact headed.head line (extent_subset (by omega) member)

/-- The recorded end of a definition with a balanced head is the first line of the head with a
closing brace. Only without such a line it is the last line of the body. -/
theorem readImplementation_headed (className : String) (text : List Char) {owner : Owner}
    {place : Place} {opening last : Nat}
    (recorded : (readImplementation className text).place? owner = some place)
    (headed : HeadedBody className.toList (Text.lines text) place.line opening last) :
    let closedHead := {number | place.line ≤ number ∧ number < opening ∧
      number ∈ linesWhere text ('\x7d' ∈ ·)}
    (∀ number, place.endLine = some number ↔ IsLeast (insert last closedHead) number) ∧
      (place.endLine = some last ↔ closedHead = ∅) := by
  intro closedHead
  have agree : ∀ number ≤ last, number ∈ endings className.toList (Text.lines text) place.line ↔
      number ∈ insert last closedHead := fun number within => headed.mayEnd_iff within
  have ended (number : Nat) :
      place.endLine = some number ↔ IsLeast (insert last closedHead) number := by
    rw [(tracks_scanned className.toList (Text.lines text)).ended owner place recorded]
    exact isLeast_congr agree ((agree last le_rfl).mpr (Set.mem_insert last closedHead))
  refine ⟨ended, (ended last).trans ⟨fun least => ?_, fun isEmpty => ?_⟩⟩
  · refine Set.eq_empty_of_forall_notMem fun number inHead => ?_
    have before := inHead.2.1
    have after := least.2 (Set.mem_insert_of_mem last inHead)
    have further := headed.closesAfter
    omega
  · rw [isEmpty, insert_empty_eq]
    exact isLeast_singleton

/-- A constructor with an initializer in braces in front of its body. -/
def bracedInitializer : List Char :=
  "A::A(int x)\n    : x_\x7bx\x7d,\n      y_(0) \x7b\n\x7d\n".toList

/-- A brace in the head ends the constructor before its body opens. -/
theorem readImplementation_headed_bracedInitializer :
    HeadedBody "A".toList (Text.lines bracedInitializer) 1 3 4 ∧
      (readImplementation "A" bracedInitializer).place? .constructor = some ⟨1, some 2⟩ ∧
      IsLeast (insert 4 {number | 1 ≤ number ∧ number < 3 ∧
        number ∈ linesWhere bracedInitializer ('\x7d' ∈ ·)}) 2 := by
  have headed : HeadedBody "A".toList (Text.lines bracedInitializer) 1 3 4 :=
    ⟨by decide, by decide, by decide +kernel, by decide +kernel, by decide +kernel,
      ⟨by decide, "\x7d".toList, by decide +kernel, by decide⟩, by decide +kernel⟩
  have recorded : (readImplementation "A" bracedInitializer).place? .constructor =
      some ⟨1, some 2⟩ := by
    decide +kernel
  exact ⟨headed, recorded,
    ((readImplementation_headed "A" bracedInitializer recorded headed).1 2).mp rfl⟩

end InterfaceAudit.Native
