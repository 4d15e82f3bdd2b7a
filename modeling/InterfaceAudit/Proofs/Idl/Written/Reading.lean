import InterfaceAudit.Proofs.Idl.Written.Token

/-!
Readings of phrases on written texts.
A list of written items is read as long as its items are sound; behind that it does not go on.
-/

namespace InterfaceAudit.Idl

open Grammar
open Grammar.Expression (skipThen thenSkip firstOf present separated)

variable {First Second Value Item : Type}

/-! ### Phrases -/

section Phrases

variable (text : List Char)

@[simp] theorem read_symbol (mark : Char) :
    grammar.read (symbol mark) text = grammar.scan (.symbol mark) text := rfl

@[simp] theorem read_keyword (word : Keyword) :
    grammar.read (keyword word) text = grammar.scan (.keyword word) text := rfl

/-- A name is the text of its token. -/
@[simp] theorem read_name :
    grammar.read name text =
      (grammar.scan .name text).map fun reading => (String.ofList reading.1, reading.2) := by
  rw [name, read_map]
  rfl

/-- The second phrase is read behind the first one, and its value is kept. -/
@[simp] theorem read_skipThen (first : Phrase First) (second : Phrase Second) :
    grammar.read (skipThen first second) text =
      (grammar.read first text).bind fun reading => grammar.read second reading.2 := by
  rw [skipThen, read_map, read_seq]
  cases grammar.read first text with
  | none => rfl
  | some reading => cases found : grammar.read second reading.2 <;> simp [found]

/-- The second phrase is read behind the first one, whose value is kept. -/
@[simp] theorem read_thenSkip (first : Phrase First) (second : Phrase Second) :
    grammar.read (thenSkip first second) text =
      (grammar.read first text).bind fun reading =>
        (grammar.read second reading.2).map fun other => (reading.1, other.2) := by
  rw [thenSkip, read_map, read_seq]
  cases grammar.read first text with
  | none => rfl
  | some reading => cases found : grammar.read second reading.2 <;> simp [found]

/-- A spaced phrase ends behind the blank that follows it. -/
@[simp] theorem read_spaced (phrase : Phrase Value) :
    grammar.read (spaced phrase) text =
      (grammar.read phrase text).map fun reading => (reading.1, afterBlank reading.2) := by
  rw [spaced, read_thenSkip]
  cases grammar.read phrase text <;> rfl

@[simp] theorem read_blank :
    grammar.read blank text = some (consumed text (afterBlank text), afterBlank text) := rfl

theorem read_optional_of_none {phrase : Phrase Value} (missing : grammar.read phrase text = none) :
    grammar.read (.optional phrase) text = some (none, text) := by
  rw [read_optional, missing]

/-- An optional phrase that is there is taken. -/
theorem read_optional_of_some {phrase : Phrase Value} {value : Value} {rest : List Char}
    (found : grammar.read phrase text = some (value, rest)) :
    grammar.read (.optional phrase) text = some (some value, rest) := by
  rw [read_optional, found]

/-- A phrase that is only looked for yields whether it was there. -/
@[simp] theorem read_present (phrase : Phrase Value) :
    grammar.read (present phrase) text =
      (grammar.read (.optional phrase) text).map fun reading => (reading.1.isSome, reading.2) := by
  rw [present, read_map]

end Phrases

/-! ### Repetitions -/

/-- Reading at least one lexeme shortens the text, so a repetition goes on. -/
theorem length_written_lt {first : List Lexeme} (nonempty : first ≠ []) (second : List Lexeme) :
    (written second).length < (written (first ++ second)).length := by
  have gapLonger : (written second).length ≤ (gap second).length := by
    rw [gap_eq]
    split
    · next empty => simp [empty, written]
    · simp
  cases first with
  | nil => contradiction
  | cons lexeme rest =>
    obtain ⟨c, chars, same, -⟩ := lexeme.chars_eq
    rw [written_append nonempty, written, same]
    simp only [List.cons_append, List.length_cons, List.length_append]
    omega

/-- The items of a block are read up to the first one that is not sound. -/
theorem readMany_block {read : List Char → Reading Value} {lexemes : Item → List Lexeme}
    {sound : Item → Bool} {value : Item → Value} (follows : List Lexeme → Prop)
    {others : List Lexeme} (items : List Item)
    (nonempty : ∀ item ∈ items, lexemes item ≠ [])
    (step : ∀ item ∈ items, ∀ rest, follows rest →
      read (written (lexemes item ++ rest)) =
        if sound item then some (value item, written rest) else none)
    (goesOn : ∀ item ∈ items, ∀ rest, follows (lexemes item ++ rest))
    (ends : follows others) (stop : read (written others) = none) :
    readMany read (written (items.flatMap lexemes ++ others)) =
      ((items.takeWhile sound).map value,
        written ((items.dropWhile sound).flatMap lexemes ++ others)) := by
  induction items with
  | nil => exact readMany_of_none stop
  | cons item items inductionHypothesis =>
    rw [List.forall_mem_cons] at nonempty step goesOn
    have followsRest : follows (items.flatMap lexemes ++ others) := by
      cases items with
      | nil => exact ends
      | cons next items =>
        rw [List.flatMap_cons, List.append_assoc]
        exact goesOn.2 next (List.mem_cons_self ..) _
    have found := step.1 (items.flatMap lexemes ++ others) followsRest
    rw [List.flatMap_cons, List.append_assoc]
    by_cases isSound : sound item = true
    · have shorter : (written (items.flatMap lexemes ++ others)).length <
          (written (lexemes item ++ (items.flatMap lexemes ++ others))).length :=
        length_written_lt nonempty.1 _
      rw [if_pos isSound] at found
      rw [readMany_of_some found shorter, inductionHypothesis nonempty.2 step.2 goesOn.2]
      simp [isSound]
    · rw [if_neg isSound] at found
      rw [readMany_of_none found]
      simp [isSound]

/-- A reading stops in front of something that is neither a comma nor the closing mark. -/
def Stuck (closing : Mark) (reading : Reading Value) : Prop :=
  ∀ value rest, reading = some (value, rest) →
    rest.head? ≠ some ',' ∧ rest.head? ≠ some closing.char

/-- Items with a comma in front of each. -/
def behindCommas (lexemes : Item → List Lexeme) (items : List Item) : List Lexeme :=
  items.flatMap fun item => .mark .comma :: lexemes item

/-- Either a comma or the closing mark stands behind an item. -/
inductive EndsItem (closing : Mark) : List Lexeme → Prop where
  | comma (rest : List Lexeme) : EndsItem closing (.mark .comma :: rest)
  | closing (rest : List Lexeme) : EndsItem closing (.mark closing :: rest)

/-- Behind an item of a list stands a comma or the mark that closes the list. -/
theorem endsItem_behindCommas (closing : Mark) (lexemes : Item → List Lexeme) (items : List Item)
    (others : List Lexeme) :
    EndsItem closing (behindCommas lexemes items ++ .mark closing :: others) := by
  cases items with
  | nil => exact .closing others
  | cons item items => exact .comma _

section Separated

variable {phrase : Phrase Value} {lexemes : Item → List Lexeme} {sound : Item → Bool}
  {value : Item → Value} {closing : Mark}

/-- Sound items are read in front of a comma or the closing mark, and behind the others the reading
is stuck. -/
structure ReadsItem (phrase : Phrase Value) (lexemes : Item → List Lexeme) (sound : Item → Bool)
    (value : Item → Value) (closing : Mark) (item : Item) : Prop where
  read_of_sound : sound item = true → ∀ {rest}, EndsItem closing rest →
    grammar.read (spaced phrase) (written (lexemes item ++ rest)) =
      some (value item, written rest)
  stuck_of_unsound : sound item = false → ∀ {rest}, EndsItem closing rest →
    Stuck closing (grammar.read (spaced phrase) (written (lexemes item ++ rest)))

theorem read_comma_of_head {text : List Char} (missing : (afterBlank text).head? ≠ some ',') :
    grammar.read (skipThen comma phrase) text = none := by
  simp [comma, scan_symbol_of_head missing]

/-- Behind a comma the next item is read. -/
theorem read_comma {text : List Char} {rest : List Lexeme}
    (stands : afterBlank text = written (.mark .comma :: rest)) :
    grammar.read (skipThen comma phrase) text = grammar.read phrase (written rest) := by
  simp [comma, stands, Mark.char]

/-- A spaced phrase reads what the phrase reads, and skips the blank behind it. -/
theorem read_of_spaced {text : List Char} {result : Value} {rest : List Lexeme}
    (found : grammar.read (spaced phrase) text = some (result, written rest)) :
    ∃ last, grammar.read phrase text = some (result, last) ∧ afterBlank last = written rest := by
  rw [read_spaced, Option.map_eq_some_iff] at found
  obtain ⟨⟨other, last⟩, read, same⟩ := found
  obtain ⟨rfl, blank⟩ := Prod.mk.inj same
  exact ⟨last, read, blank⟩

/-- A comma and an item take at least the comma. -/
theorem comma_shorter {text rest : List Char} {result : Value}
    (found : grammar.read (skipThen comma phrase) text = some (result, rest)) :
    rest.length < text.length :=
  progressive.read_length_lt (skipThen comma phrase) rfl found

theorem char_ne_comma (notComma : closing ≠ .comma) : closing.char ≠ ',' := by
  revert notComma
  cases closing <;> decide

/-- Sound items behind the first one are read up to the closing mark. -/
theorem readMany_behindCommas (notComma : closing ≠ .comma) {others : List Lexeme}
    {items : List Item} (allSound : ∀ item ∈ items, sound item = true)
    (reads : ∀ item ∈ items, ReadsItem phrase lexemes sound value closing item)
    {text : List Char}
    (stands : afterBlank text =
      written (behindCommas lexemes items ++ .mark closing :: others)) :
    ∃ rest, readMany (grammar.read (skipThen comma phrase)) text = (items.map value, rest) ∧
      afterBlank rest = written (.mark closing :: others) := by
  induction items generalizing text with
  | nil =>
    refine ⟨text, readMany_of_none (read_comma_of_head ?_), stands⟩
    rw [stands]
    simpa [behindCommas, written, Lexeme.chars] using char_ne_comma notComma
  | cons item items inductionHypothesis =>
    rw [List.forall_mem_cons] at reads allSound
    have ends := endsItem_behindCommas closing lexemes items others
    obtain ⟨last, found, blank⟩ := read_of_spaced (reads.1.read_of_sound allSound.1 ends)
    have readItem : grammar.read (skipThen comma phrase) text = some (value item, last) := by
      rw [← found]
      apply read_comma
      rw [stands]
      simp [behindCommas]
    obtain ⟨rest, readItems, closes⟩ := inductionHypothesis allSound.2 reads.2 blank
    refine ⟨rest, ?_, closes⟩
    rw [readMany_of_some readItem (comma_shorter readItem), readItems]
    rfl

/-- If the first item is sound, an unsound one stands behind it. -/
theorem exists_unsound_behind {item : Item} {items : List Item} (isSound : sound item = true)
    (unsound : ∃ other ∈ item :: items, sound other = false) :
    ∃ other ∈ items, sound other = false := by
  obtain ⟨other, member, otherUnsound⟩ := unsound
  rcases List.mem_cons.mp member with rfl | inItems
  · rw [isSound] at otherUnsound
    contradiction
  · exact ⟨other, inItems, otherUnsound⟩

/-- With an unsound item behind the first one the reading does not reach the closing mark. -/
theorem readMany_behindCommas_unsound (notComma : closing ≠ .comma) {others : List Lexeme}
    {items : List Item} (unsound : ∃ item ∈ items, sound item = false)
    (reads : ∀ item ∈ items, ReadsItem phrase lexemes sound value closing item)
    {text : List Char}
    (stands : afterBlank text =
      written (behindCommas lexemes items ++ .mark closing :: others)) :
    (afterBlank (readMany (grammar.read (skipThen comma phrase)) text).2).head? ≠
      some closing.char := by
  induction items generalizing text with
  | nil => simp at unsound
  | cons item items inductionHypothesis =>
    rw [List.forall_mem_cons] at reads
    have ends := endsItem_behindCommas closing lexemes items others
    have readItem : grammar.read (skipThen comma phrase) text = grammar.read phrase
        (written (lexemes item ++ (behindCommas lexemes items ++ .mark closing :: others))) := by
      apply read_comma
      rw [stands]
      simp [behindCommas]
    by_cases isSound : sound item = true
    · obtain ⟨last, found, blank⟩ := read_of_spaced (reads.1.read_of_sound isSound ends)
      rw [found] at readItem
      rw [readMany_of_some readItem (comma_shorter readItem)]
      exact inductionHypothesis (exists_unsound_behind isSound unsound) reads.2 blank
    · have stuck := reads.1.stuck_of_unsound (eq_false_of_ne_true isSound) ends
      cases found : grammar.read phrase
          (written (lexemes item ++ (behindCommas lexemes items ++ .mark closing :: others))) with
      | none =>
        rw [found] at readItem
        rw [readMany_of_none readItem, stands]
        simpa [behindCommas, written, Lexeme.chars, Mark.char] using
          (char_ne_comma notComma).symm
      | some reading =>
        obtain ⟨result, last⟩ := reading
        rw [found] at readItem
        have apart := stuck result (afterBlank last) (by rw [read_spaced, found]; rfl)
        rw [readMany_of_some readItem (comma_shorter readItem),
          readMany_of_none (read_comma_of_head apart.1)]
        exact apart.2

variable {item : Item} {items : List Item} {others : List Lexeme}
  (reads : ∀ other ∈ item :: items, ReadsItem phrase lexemes sound value closing other)

include reads

/-- A list of sound items is read up to its closing mark. -/
theorem read_separated (notComma : closing ≠ .comma)
    (allSound : ∀ other ∈ item :: items, sound other = true) :
    grammar.read (spaced (separated comma phrase))
        (written (lexemes item ++ (behindCommas lexemes items ++ .mark closing :: others))) =
      some ((item :: items).map value, written (.mark closing :: others)) := by
  rw [List.forall_mem_cons] at reads allSound
  have ends := endsItem_behindCommas closing lexemes items others
  obtain ⟨last, found, blank⟩ := read_of_spaced (reads.1.read_of_sound allSound.1 ends)
  obtain ⟨rest, readItems, closes⟩ :=
    readMany_behindCommas notComma allSound.2 reads.2 blank
  simp [separated, read_seq, found, readItems, closes]

/-- A list with an unsound item is not read up to its closing mark. -/
theorem read_separated_unsound (notComma : closing ≠ .comma)
    (unsound : ∃ other ∈ item :: items, sound other = false) {values : List Value}
    {rest : List Char}
    (found : grammar.read (spaced (separated comma phrase))
        (written (lexemes item ++ (behindCommas lexemes items ++ .mark closing :: others))) =
      some (values, rest)) : rest.head? ≠ some closing.char := by
  rw [List.forall_mem_cons] at reads
  have ends := endsItem_behindCommas closing lexemes items others
  rw [read_spaced, separated, read_map, read_seq] at found
  cases first : grammar.read phrase
      (written (lexemes item ++ (behindCommas lexemes items ++ .mark closing :: others))) with
  | none => simp [first] at found
  | some reading =>
    obtain ⟨result, last⟩ := reading
    simp only [first, Option.bind_some, read_many, Option.map_some, Option.some.injEq,
      Prod.mk.injEq] at found
    rw [← found.2]
    by_cases isSound : sound item = true
    · have read := reads.1.read_of_sound isSound ends
      rw [read_spaced, first, Option.map_some, Option.some.injEq, Prod.mk.injEq] at read
      exact readMany_behindCommas_unsound notComma (exists_unsound_behind isSound unsound)
        reads.2 read.2
    · have stuck := reads.1.stuck_of_unsound (eq_false_of_ne_true isSound) ends
      have apart := stuck result (afterBlank last) (by rw [read_spaced, first]; rfl)
      rw [readMany_of_none (read_comma_of_head apart.1)]
      exact apart.2

/-- A separated list is read with its closing mark when all its items are sound. -/
theorem read_separated_closed (notComma : closing ≠ .comma) :
    grammar.read (thenSkip (spaced (separated comma phrase)) (symbol closing.char))
        (written (lexemes item ++ (behindCommas lexemes items ++ .mark closing :: others))) =
      if (item :: items).all sound then some ((item :: items).map value, gap others)
      else none := by
  rw [read_thenSkip]
  split
  · next allSound =>
    rw [read_separated reads notComma (List.all_eq_true.mp allSound)]
    simp
  · next notAll =>
    simp only [List.all_eq_true, not_forall, Bool.not_eq_true] at notAll
    obtain ⟨other, member, unsound⟩ := notAll
    cases found : grammar.read (spaced (separated comma phrase))
        (written (lexemes item ++ (behindCommas lexemes items ++ .mark closing :: others))) with
    | none => rfl
    | some reading =>
      obtain ⟨values, rest⟩ := reading
      have apart := read_separated_unsound reads notComma ⟨other, member, unsound⟩ found
      simp [scan_symbol_of_head apart]

end Separated

end InterfaceAudit.Idl
