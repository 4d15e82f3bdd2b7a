import InterfaceAudit.Proofs.Idl.Written.Primitive
import InterfaceAudit.Proofs.Idl.Written.Spelling
import InterfaceAudit.Proofs.Text.Squeeze

/-!
Words of primitive types: what the scan takes are words with white space between them.
-/

namespace InterfaceAudit.Idl

/-- White space that is not empty separates pieces. -/
theorem gap_of_isWhiteSpace {gap : List Char} (white : gap.all Text.isWhiteSpace = true)
    (nonempty : gap ≠ []) : Text.Gap gap where
  blank c member := by
    rw [Text.isBlank, List.all_eq_true.mp white c member, Bool.true_or]
  ne_nil := nonempty

/-- Words with white space between them. -/
inductive Words : List (List Char) → List Char → Prop
  | one {word : List Char} (nonempty : word ≠ []) (parts : word.all isTokenPart = true) :
    Words [word] word
  | cons {word gap : List Char} {words : List (List Char)} {text : List Char}
    (nonempty : word ≠ []) (parts : word.all isTokenPart = true) (gapNonempty : gap ≠ [])
    (white : gap.all Text.isWhiteSpace = true) (others : Words words text) :
    Words (word :: words) (word ++ (gap ++ text))

/-- The pieces of words with white space between them are these words. -/
theorem Words.pieces_eq {words : List (List Char)} {text : List Char} (isWords : Words words text) :
    Text.pieces text = words.map .word := by
  have run {word : List Char} (nonempty : word ≠ []) (parts : word.all isTokenPart = true) :
      Text.pieces word = [.word word] := by
    obtain ⟨c, rest, rfl⟩ := List.exists_cons_of_ne_nil nonempty
    exact Text.pieces_run (List.all_eq_true.mpr fun c member =>
      isPlain_of_isTokenPart (List.all_eq_true.mp parts c member))
  induction isWords with
  | one nonempty parts => exact run nonempty parts
  | cons nonempty parts gapNonempty white others inductionHypothesis =>
    rw [Text.pieces_append_gap (gap_of_isWhiteSpace white gapNonempty),
      run nonempty parts, inductionHypothesis]
    rfl

/-- The words of such a text are found again. -/
theorem Words.wordsOf_eq {words : List (List Char)} {text : List Char}
    (isWords : Words words text) : wordsOf text = words.map String.ofList := by
  rw [wordsOf, isWords.pieces_eq]
  clear isWords
  induction words with
  | nil => rfl
  | cons word words inductionHypothesis =>
    rw [List.map_cons, List.filterMap_cons, inductionHypothesis, List.map_cons]

/-- Whatever the scan takes are words. -/
def ScansWords (scan : List Char → Scan) : Prop :=
  ∀ ⦃text taken rest⦄, scan text = some (taken, rest) → ∃ words, Words words taken

/-- Whichever of two scans succeeds takes words. -/
theorem scansWords_or {first second : List Char → Scan} (firstScans : ScansWords first)
    (secondScans : ScansWords second) :
    ScansWords fun text => (first text).or (second text) := by
  intro text taken rest found
  rcases Option.or_eq_some_iff.mp found with firstFound | ⟨-, secondFound⟩
  · exact firstScans firstFound
  · exact secondScans secondFound

/-- A spelling of token parts is one word. -/
theorem scansWords_spelling {spelling : List Char} (nonempty : spelling ≠ [])
    (parts : spelling.all isTokenPart = true) : ScansWords (scanSpelling spelling) := by
  intro text taken rest found
  obtain ⟨rfl, -⟩ := scanSpelling_eq_some found
  exact ⟨[_], .one nonempty parts⟩

/-- Asking for the end of a word does not change what is taken. -/
theorem scansWords_wholeWord {scan : List Char → Scan} (scans : ScansWords scan) :
    ScansWords fun text => (scan text).wholeWord := by
  intro text taken rest found
  simp only [Scan.wholeWord] at found
  split at found <;> try contradiction
  next scanned =>
    split at found <;> try contradiction
    obtain ⟨rfl, rfl⟩ := Prod.mk.inj (Option.some.inj found)
    exact scans scanned

/-- A spelling and white space stand in front of what the second scan takes. -/
theorem spaced_eq_some {spelling text taken rest : List Char} {words : List Char → Scan}
    (found : ((scanSpelling spelling text).andThen scanSpaces).andThen words =
      some (taken, rest)) :
    ∃ gap others last, taken = spelling ++ (gap ++ others) ∧ gap ≠ [] ∧
      (∀ c ∈ gap, Text.isWhiteSpace c = true) ∧ words last = some (others, rest) := by
  cases spelled : scanSpelling spelling text with
  | none => simp [spelled] at found
  | some reading =>
    obtain ⟨word, behind⟩ := reading
    obtain ⟨rfl, -⟩ := scanSpelling_eq_some spelled
    simp only [spelled, some_andThen] at found
    cases spaced : scanSpaces behind with
    | none => simp [spaced] at found
    | some reading =>
      obtain ⟨gap, last⟩ := reading
      have spaces : Inert Text.isWhiteSpace scanSpaces := scanSome_inert fun _ => id
      have split := spaces.splits spaced
      simp only [spaced, Option.map_some, some_andThen, Option.map_eq_some_iff] at found
      obtain ⟨⟨others, final⟩, scanned, same⟩ := found
      obtain ⟨rfl, rfl⟩ := Prod.mk.inj same
      exact ⟨gap, others, last, List.append_assoc .., split.taken_ne_nil, split.inert, scanned⟩

/-- A word and more words behind white space are words. -/
theorem scansWords_spaced {spelling : List Char} {words : List Char → Scan}
    (nonempty : spelling ≠ []) (parts : spelling.all isTokenPart = true)
    (scans : ScansWords words) :
    ScansWords fun text => ((scanSpelling spelling text).andThen scanSpaces).andThen words := by
  intro text taken rest found
  obtain ⟨gap, others, last, rfl, gapNonempty, white, scanned⟩ := spaced_eq_some found
  obtain ⟨words, isWords⟩ := scans scanned
  exact ⟨spelling :: words,
    .cons nonempty parts gapNonempty (List.all_eq_true.mpr white) isWords⟩

/-- A primitive type takes words with white space between them. -/
theorem scansWords_primitive : ScansWords scanPrimitive := by
  have word {spelling : List Char} (nonempty : spelling ≠ [])
      (parts : spelling.all isTokenPart = true) : ScansWords (scanKeyword spelling) :=
    scansWords_wholeWord (scansWords_spelling nonempty parts)
  have integer : ScansWords scanInteger := by
    have long : ScansWords (scanSpelling Word.long.chars) :=
      scansWords_spelling (by decide) (by decide)
    have twice := scansWords_wholeWord
      (scansWords_spaced (by decide : Word.long.chars ≠ []) (by decide) long)
    rw [funext scanInteger_eq]
    exact scansWords_or twice (scansWords_or (word (by decide) (by decide))
      (word (by decide) (by decide)))
  have real : ScansWords scanReal := by
    rw [funext scanReal_eq]
    exact scansWords_or (word (by decide) (by decide)) (word (by decide) (by decide))
  have modified {modifier : List Char} {words : List Char → Scan} (nonempty : modifier ≠ [])
      (parts : modifier.all isTokenPart = true) (scans : ScansWords words) :
      ScansWords (scanModified modifier words) := by
    rw [funext (scanModified_eq modifier words)]
    exact scansWords_or (scansWords_spaced nonempty parts scans) scans
  rw [funext scanPrimitive_eq]
  exact scansWords_or (modified (by decide) (by decide) integer)
    (modified (by decide) (by decide) real)

end InterfaceAudit.Idl
