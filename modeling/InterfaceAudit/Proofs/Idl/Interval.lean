import InterfaceAudit.Proofs.Grammar.Lockstep
import InterfaceAudit.Proofs.Idl.Closed
import InterfaceAudit.Proofs.Idl.Statement
import InterfaceAudit.Proofs.Idl.Written.Lexeme
import Mathlib.Data.List.Basic

/-!
Intervals: runs of white space and comments between two tokens.
Tokens that begin in front of an interval end there, whatever stands in it; only the words of a
primitive type reach over white space.
-/

namespace InterfaceAudit.Idl

open Grammar

/-- Some character of a blank is no white space, so there is a comment in it. -/
def HasComment (run : List Char) : Prop := ∃ c ∈ run, Text.isWhiteSpace c = false

/-- With white space between them the texts would have a primitive type across it. -/
def Joins (before after : List Char) : Prop :=
  ("unsigned".toList <:+ before ∧ (scanInteger after).isSome) ∨
    ("unrestricted".toList <:+ before ∧ (scanReal after).isSome) ∨
    ("long".toList <:+ before ∧ (scanKeyword "long".toList after).isSome)

/-- A blank between two texts: the first one is closed and does not end with white space, and no
blank begins with the second one. -/
structure Interval (before run after : List Char) : Prop where
  closed : Closed before
  isBlank : IsBlank run
  unspaced : ∀ c ∈ before.getLast?, Text.isWhiteSpace c = false
  stops : afterBlank after = after

/-- Where the run of a parted interval is empty, its texts do not meet inside a word or a number. -/
structure PartedInterval (before run after : List Char) : Prop extends
    Interval before run after where
  parted : run = [] → ∀ c ∈ before.getLast?, ∀ d ∈ after.head?,
    isTokenPart c = false ∨ isTokenPart d = false

namespace Interval

variable {before run after text : List Char} (interval : Interval before run after)

/-- Any other run may take the place of the first one. -/
theorem replace (interval : Interval before run after) {other : List Char}
    (isBlank : IsBlank other) : Interval before other after :=
  { interval with isBlank }

include interval

/-- The run is skipped, and what follows it does not start with a blank. -/
theorem afterBlank_run : afterBlank (run ++ after) = after := by
  rw [interval.isBlank.afterBlank_append, interval.stops]

/-- The text behind an interval starts solid. -/
theorem isWhiteSpace_head {c : Char} {rest : List Char} (split : after = c :: rest) :
    Text.isWhiteSpace c = false := by
  by_contra isSpace
  have notSlash : c ≠ '/' := by
    rintro rfl
    exact isSpace rfl
  have found : afterBlankItem after = some rest := by
    rw [split, afterBlankItem_of_ne_slash notSlash, if_pos (by simpa using isSpace)]
  have stops := interval.stops
  rw [afterBlank_of_some found] at stops
  have shorter := (afterBlank_suffix rest).length_le
  rw [stops, split, List.length_cons] at shorter
  omega

/-- No word or number goes on into the run. -/
theorem isTokenPart_head {c : Char} {rest : List Char} (split : run = c :: rest) :
    isTokenPart c = false := by
  by_contra part
  rcases interval.isBlank.head split with isSpace | rfl
  · rw [isWhiteSpace_false_of_isTokenPart (by simpa using part)] at isSpace
    contradiction
  · exact part (by decide)

/-- White space of the interval is followed by a comment, or the interval has none and ends. -/
theorem scanSpaces_run {spaces rest : List Char}
    (found : scanSpaces (run ++ after) = some (spaces, rest)) :
    (rest = after ∧ ¬HasComment run) ∨ ∃ others, rest = '/' :: others := by
  have unspaced : after.dropWhile Text.isWhiteSpace = after := by
    cases split : after with
    | nil => rfl
    | cons c others =>
      exact List.dropWhile_cons_of_neg (by simpa using interval.isWhiteSpace_head split)
  have dropped : rest = (run ++ after).dropWhile Text.isWhiteSpace := by
    unfold scanSpaces scanWhile at found
    split at found
    · contradiction
    · next same =>
      obtain ⟨-, rfl⟩ := Prod.mk.inj (Option.some.inj found)
      exact (Prod.mk.inj same).2.symm
  rcases interval.isBlank.dropWhile with white | ⟨others, comment⟩
  · refine .inl ⟨?_, ?_⟩
    · rw [dropped, List.dropWhile_append, white]
      exact unspaced
    · rintro ⟨c, member, notSpace⟩
      rw [List.dropWhile_eq_nil_iff.mp white c member] at notSpace
      contradiction
  · refine .inr ⟨others ++ after, ?_⟩
    rw [dropped, List.dropWhile_append, comment]
    rfl

/-- Spaces in front of the interval end there. -/
theorem scanSpaces_append (suffix : text <:+ before) (nonempty : text ≠ []) :
    scanSpaces (text ++ (run ++ after)) = extended (run ++ after) (scanSpaces text) ∧
      ∀ {spaces rest}, scanSpaces text = some (spaces, rest) → rest ≠ [] := by
  obtain ⟨front, c, rfl⟩ := (List.eq_nil_or_concat' text).resolve_left nonempty
  have last : before.getLast? = some c := by
    obtain ⟨start, rfl⟩ := suffix
    simp
  have notSpace := interval.unspaced c last
  have inert : Inert Text.isWhiteSpace scanSpaces := scanSome_inert fun _ => id
  refine ⟨inert.append _ ⟨c, by simp, notSpace⟩, ?_⟩
  rintro spaces rest found rfl
  have split := inert.splits found
  rw [split.inert c (by rw [← List.append_nil spaces, split.append]; simp)] at notSpace
  contradiction

end Interval

/-! ### Tokens in front of a parted interval -/

/-- A scan is the first one of two alternatives that takes something. -/
theorem orElse_append (first second : List Char → Scan) {text extension : List Char}
    (firstSame : first (text ++ extension) = extended extension (first text))
    (secondSame : second (text ++ extension) = extended extension (second text)) :
    (match first (text ++ extension) with
      | some scan => some scan
      | none => second (text ++ extension)) =
    extended extension (match first text with
      | some scan => some scan
      | none => second text) := by
  rw [firstSame, secondSame]
  cases first text <;> rfl

namespace PartedInterval

variable {before run after text : List Char} (interval : PartedInterval before run after)

include interval

/-- Scans of token characters end in front of the interval. -/
theorem inert_append {scan : List Char → Scan} (inert : Inert isTokenPart scan)
    (suffix : text <:+ before) (nonempty : text ≠ []) :
    scan (text ++ (run ++ after)) = extended (run ++ after) (scan text) := by
  cases split : run with
  | cons c rest => exact inert.steady text (rest ++ after) (interval.isTokenPart_head split)
  | nil =>
    rw [List.nil_append]
    cases head : after with
    | nil =>
      rw [List.append_nil]
      cases scan text with
      | none => rfl
      | some reading => simp only [extended, Option.map_some, List.append_nil]
    | cons d rest =>
      obtain ⟨front, c, rfl⟩ := (List.eq_nil_or_concat' text).resolve_left nonempty
      have last : before.getLast? = some c := by
        obtain ⟨start, rfl⟩ := suffix
        simp
      rcases interval.parted split c last d (by rw [head]; rfl) with notPart | notPart
      · exact inert.append (d :: rest) ⟨c, by simp, notPart⟩
      · exact inert.steady _ rest notPart

/-- Behind white space that ends in the interval no word stands, unless one does behind the
interval. -/
theorem words_none {words : List Char → Scan} (inert : Inert isInert words)
    (apart : ¬HasComment run → words after = none) :
    (scanSpaces (run ++ after)).andThen words = none := by
  cases spaced : scanSpaces (run ++ after) with
  | none => rfl
  | some found =>
    obtain ⟨spaces, behind⟩ := found
    have fails : words behind = none := by
      rcases interval.scanSpaces_run spaced with ⟨rfl, noComment⟩ | ⟨others, rfl⟩
      · exact apart noComment
      · exact inert.none_of_outside (by decide) others
    simp only [Scan.andThen, fails]

/-- White space that begins in front of the interval has its words there as well. -/
theorem words_append {words : List Char → Scan}
    (steady : ∀ {text}, text <:+ before → text ≠ [] →
      words (text ++ (run ++ after)) = extended (run ++ after) (words text))
    (suffix : text <:+ before) (nonempty : text ≠ []) :
    (scanSpaces (text ++ (run ++ after))).andThen words =
      extended (run ++ after) ((scanSpaces text).andThen words) := by
  obtain ⟨longer, goesOn⟩ := interval.scanSpaces_append suffix nonempty
  simp only [Scan.andThen, longer]
  cases spaced : scanSpaces text with
  | none => rfl
  | some found =>
    obtain ⟨spaces, behind⟩ := found
    have spacesInert : Inert Text.isWhiteSpace scanSpaces := scanSome_inert fun _ => id
    have behindSuffix : behind <:+ before :=
      (List.suffix_append spaces behind).trans ((spacesInert.splits spaced).append ▸ suffix)
    simp only [extended_some, steady behindSuffix (goesOn spaced)]
    cases words behind <;> rfl

/-- A modifier in front of the interval has its words there as well, unless they stand behind the
interval with white space alone before them. -/
theorem modified_append (modifier : List Char) (words : List Char → Scan)
    (modifierNonempty : modifier ≠ []) (parts : modifier.all isTokenPart = true)
    (inert : Inert isInert words)
    (steady : ∀ {text}, text <:+ before → text ≠ [] →
      words (text ++ (run ++ after)) = extended (run ++ after) (words text))
    (apart : modifier <:+ before → ¬HasComment run → words after = none)
    (suffix : text <:+ before) (nonempty : text ≠ []) :
    ((scanSpelling modifier (text ++ (run ++ after))).andThen scanSpaces).andThen words =
      extended (run ++ after)
        (((scanSpelling modifier text).andThen scanSpaces).andThen words) := by
  have spelling : Inert isTokenPart (scanSpelling modifier) :=
    scanPart_inert (fun _ => id) modifierNonempty parts
  rw [andThen_assoc, andThen_assoc, interval.inert_append spelling suffix nonempty]
  cases spelled : scanSpelling modifier text with
  | none => rfl
  | some reading =>
    obtain ⟨taken, rest⟩ := reading
    obtain ⟨rfl, rfl⟩ := scanSpelling_eq_some spelled
    have restSuffix : rest <:+ before := (List.suffix_append taken rest).trans suffix
    simp only [extended_some]
    by_cases ends : rest = []
    · subst ends
      rw [List.append_nil] at suffix
      rw [Scan.andThen, List.nil_append, interval.words_none inert (apart suffix)]
      rfl
    · rw [Scan.andThen, interval.words_append steady restSuffix ends, Scan.andThen]
      cases (scanSpaces rest).andThen words <;> rfl

/-- A word that begins in front of the interval ends there. -/
theorem word_append (spelling : List Char) (some : spelling ≠ [])
    (parts : spelling.all isTokenPart = true) (suffix : text <:+ before) (nonempty : text ≠ []) :
    scanKeyword spelling (text ++ (run ++ after)) =
      extended (run ++ after) (scanKeyword spelling text) :=
  interval.inert_append (scanWord_inert (fun _ => id) some parts) suffix nonempty

/-- A floating type ends in front of the interval, as it is one word. -/
theorem scanReal_append (suffix : text <:+ before) (nonempty : text ≠ []) :
    scanReal (text ++ (run ++ after)) = extended (run ++ after) (scanReal text) :=
  orElse_append (scanKeyword "float".toList) (scanKeyword "double".toList)
    (interval.word_append _ (by decide) (by decide) suffix nonempty)
    (interval.word_append _ (by decide) (by decide) suffix nonempty)

/-- An integer type ends in front of the interval unless white space joins two words. -/
theorem scanInteger_append (apart : Joins before after → HasComment run)
    (suffix : text <:+ before) (nonempty : text ≠ []) :
    scanInteger (text ++ (run ++ after)) = extended (run ++ after) (scanInteger text) := by
  have twice := interval.modified_append "long".toList (scanKeyword "long".toList) (by decide)
    (by decide) (scanWord_inert isInert_of_isTokenPart (by decide) (by decide))
    (interval.word_append _ (by decide) (by decide))
    (fun ends noComment => by
      by_contra found
      exact noComment (apart (.inr (.inr ⟨ends, Option.isSome_iff_ne_none.mpr found⟩))))
    suffix nonempty
  have whole (text : List Char) := wholeWord_andThen
    ((scanSpelling "long".toList text).andThen scanSpaces) (scanSpelling "long".toList)
  unfold scanInteger
  dsimp only
  rw [whole, whole]
  exact orElse_append
    (fun text => ((scanSpelling "long".toList text).andThen scanSpaces).andThen
      (scanKeyword "long".toList))
    (fun text => match scanKeyword "long".toList text with
      | some scan => some scan
      | none => scanKeyword "short".toList text) twice
    (orElse_append (scanKeyword "long".toList) (scanKeyword "short".toList)
      (interval.word_append _ (by decide) (by decide) suffix nonempty)
      (interval.word_append _ (by decide) (by decide) suffix nonempty))

/-- A modifier ends in front of the interval unless white space joins it to its words. -/
theorem scanModified_append (modifier : List Char) (words : List Char → Scan)
    (modifierNonempty : modifier ≠ []) (parts : modifier.all isTokenPart = true)
    (inert : Inert isInert words)
    (steady : ∀ {text}, text <:+ before → text ≠ [] →
      words (text ++ (run ++ after)) = extended (run ++ after) (words text))
    (apart : modifier <:+ before → ¬HasComment run → words after = none)
    (suffix : text <:+ before) (nonempty : text ≠ []) :
    scanModified modifier words (text ++ (run ++ after)) =
      extended (run ++ after) (scanModified modifier words text) :=
  orElse_append
    (fun text => ((scanSpelling modifier text).andThen scanSpaces).andThen words) words
    (interval.modified_append modifier words modifierNonempty parts inert steady apart suffix
      nonempty)
    (steady suffix nonempty)

/-- A primitive type ends in front of the interval unless white space joins its words. -/
theorem scanPrimitive_append (apart : Joins before after → HasComment run)
    (suffix : text <:+ before) (nonempty : text ≠ []) :
    scanPrimitive (text ++ (run ++ after)) = extended (run ++ after) (scanPrimitive text) := by
  have unsigned := interval.scanModified_append "unsigned".toList scanInteger (by decide)
    (by decide) (scanInteger_inert isInert_of_isTokenPart isInert_of_isWhiteSpace)
    (interval.scanInteger_append apart)
    (fun ends noComment => by
      by_contra found
      exact noComment (apart (.inl ⟨ends, Option.isSome_iff_ne_none.mpr found⟩)))
    suffix nonempty
  have unrestricted := interval.scanModified_append "unrestricted".toList scanReal (by decide)
    (by decide) (scanReal_inert isInert_of_isTokenPart) interval.scanReal_append
    (fun ends noComment => by
      by_contra found
      exact noComment (apart (.inr (.inl ⟨ends, Option.isSome_iff_ne_none.mpr found⟩))))
    suffix nonempty
  exact orElse_append (scanModified "unsigned".toList scanInteger)
    (scanModified "unrestricted".toList scanReal) unsigned unrestricted

end PartedInterval

end InterfaceAudit.Idl
