import InterfaceAudit.Text.Search
import Mathlib.Data.List.TakeWhile

/-!
Blanks: the characters they are, and how a text is read past them.
-/

namespace InterfaceAudit.Text

/-- The code points of all blanks. -/
def blankCodes : List Nat :=
  [9, 10, 11, 12, 13, 28, 29, 30, 31, 32, 0x85, 0xA0, 0x1680, 0x2000, 0x2001, 0x2002, 0x2003,
    0x2004, 0x2005, 0x2006, 0x2007, 0x2008, 0x2009, 0x200A, 0x2028, 0x2029, 0x202F, 0x205F, 0x3000]

/-- There are finitely many blanks. -/
theorem mem_blankCodes {c : Char} (blank : isBlank c = true) : c.toNat ∈ blankCodes := by
  have space : ' '.toNat = 32 := rfl
  simp only [isBlank, isWhiteSpace, Bool.or_eq_true, Bool.and_eq_true, decide_eq_true_eq] at blank
  simp only [blankCodes, List.mem_cons, List.not_mem_nil, or_false]
  rcases blank with white | separator
  · split at white
    · simp only [Bool.or_eq_true, Bool.and_eq_true, decide_eq_true_eq, beq_iff_eq] at white
      rcases white with rfl | control
      · omega
      · omega
    · simp only [Bool.or_eq_true, Bool.and_eq_true, decide_eq_true_eq, beq_iff_eq] at white
      omega
  · omega

/-- A class without any of these code points is apart from the blanks. -/
theorem isBlank_false_of_apart {holds : Char → Bool} {c : Char}
    (apart : blankCodes.all (fun code => !holds (Char.ofNat code)) = true)
    (held : holds c = true) : isBlank c = false := by
  by_contra blank
  have member := mem_blankCodes (by simpa using blank)
  have notHeld : (!holds (Char.ofNat c.toNat)) = true :=
    List.all_eq_true.mp apart c.toNat member
  rw [Char.ofNat_toNat, held] at notHeld
  exact Bool.false_ne_true notHeld

theorem isBlank_false_of_isWord {c : Char} (word : isWord c = true) : isBlank c = false :=
  isBlank_false_of_apart (by decide +kernel) word

/-- Blanks are no word characters. -/
theorem isWord_false_of_isBlank {c : Char} (blank : isBlank c = true) : isWord c = false := by
  by_contra held
  rw [isBlank_false_of_isWord (by simpa using held)] at blank
  contradiction

def Blank (text : List Char) : Prop := ∀ c ∈ text, isBlank c = true

/-- A gap is a blank that is not empty. -/
structure Gap (text : List Char) : Prop where
  blank : Blank text
  ne_nil : text ≠ []

/-- What follows a blank as long as possible. -/
def Unindented (text : List Char) : Prop := ∀ c ∈ text.head?, isBlank c = false

/-- A run that is dropped ends where its condition fails. -/
theorem head_dropWhile (holds : Char → Bool) (text : List Char) :
    ∀ c ∈ (text.dropWhile holds).head?, holds c = false := by
  intro c first
  have stops := List.head?_dropWhile_not holds text
  rw [Option.mem_def.mp first] at stops
  simpa using stops

theorem unindented_cons {c : Char} {rest : List Char} (solid : isBlank c = false) :
    Unindented (c :: rest) := by
  simpa [Unindented] using solid

/-- A text without a leading blank follows the blank that is skipped. -/
theorem skipBlanks_eq_iff {text rest : List Char} :
    skipBlanks text = rest ↔ Unindented rest ∧ ∃ indent, Blank indent ∧ text = indent ++ rest := by
  constructor
  · rintro rfl
    refine ⟨fun c first => ?_, text.takeWhile isBlank,
      fun c member => List.mem_takeWhile_imp member, List.takeWhile_append_dropWhile.symm⟩
    have stops := List.head?_dropWhile_not isBlank text
    rw [skipBlanks] at first
    rw [Option.mem_def.mp first] at stops
    simpa using stops
  · rintro ⟨unindented, indent, blank, rfl⟩
    rw [skipBlanks, List.dropWhile_append_of_pos blank]
    cases rest with
    | nil => rfl
    | cons c rest => simp [unindented c rfl]

/-- Some blanks are skipped exactly where a gap stands. -/
theorem skipSomeBlanks_eq_some_iff {text rest : List Char} :
    skipSomeBlanks text = some rest ↔ Unindented rest ∧ ∃ gap, Gap gap ∧ text = gap ++ rest := by
  constructor
  · intro found
    unfold skipSomeBlanks at found
    split at found
    · next c others =>
      split at found
      · next blank =>
        obtain ⟨unindented, indent, indentBlank, split⟩ :=
          skipBlanks_eq_iff.mp (Option.some.inj found)
        refine ⟨unindented, c :: indent, ⟨List.forall_mem_cons.mpr ⟨blank, indentBlank⟩,
          List.cons_ne_nil c indent⟩, ?_⟩
        rw [split, List.cons_append]
      · contradiction
    · contradiction
  · rintro ⟨unindented, gap, ⟨blank, nonempty⟩, rfl⟩
    cases gap with
    | nil => contradiction
    | cons c gap =>
      obtain ⟨first, others⟩ := List.forall_mem_cons.mp blank
      rw [List.cons_append, skipSomeBlanks, if_pos first,
        skipBlanks_eq_iff.mpr ⟨unindented, gap, others, rfl⟩]

/-- What follows a spelling is left when the text starts with it. -/
theorem afterSpelling_eq_some_iff {spelling text rest : List Char} :
    afterSpelling spelling text = some rest ↔ text = spelling ++ rest := by
  constructor
  · intro found
    unfold afterSpelling at found
    split at found
    · next spelled =>
      obtain ⟨others, rfl⟩ := List.isPrefixOf_iff_prefix.mp spelled
      rw [List.drop_left] at found
      rw [Option.some.inj found]
    · contradiction
  · rintro rfl
    rw [afterSpelling, if_pos (List.isPrefixOf_iff_prefix.mpr (List.prefix_append ..)),
      List.drop_left]

theorem afterSpelling_append (spelling rest : List Char) :
    afterSpelling spelling (spelling ++ rest) = some rest :=
  afterSpelling_eq_some_iff.mpr rfl

end InterfaceAudit.Text
