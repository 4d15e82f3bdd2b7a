import InterfaceAudit.Idl.Token
import InterfaceAudit.Proofs.Grammar.Extension
import Mathlib.Data.List.TakeWhile

/-!
Scans of tokens.
A scan splits the text, and it is decided before the first character that is no part of a word, a
number or a blank.
-/

namespace InterfaceAudit.Idl

open Grammar (extended extended_none extended_some)

/-- A text is split behind some characters of a class. -/
structure InertSplit (inside : Char → Bool) (text taken rest : List Char) : Prop where
  append : taken ++ rest = text
  taken_ne_nil : taken ≠ []
  inert : ∀ c ∈ taken, inside c = true

namespace InertSplit

variable {inside : Char → Bool} {c : Char} {text middle taken rest first second : List Char}

/-- Two splits in a row are one split, and what the first one takes stands in front. -/
theorem andThen (firstSplit : InertSplit inside text first middle)
    (secondSplit : InertSplit inside middle second rest) :
    InertSplit inside text (first ++ second) rest where
  append := by rw [List.append_assoc, secondSplit.append, firstSplit.append]
  taken_ne_nil := by simp [firstSplit.taken_ne_nil]
  inert c member := by
    rcases List.mem_append.mp member with inFirst | inSecond
    · exact firstSplit.inert c inFirst
    · exact secondSplit.inert c inSecond

/-- A character that counts as inside may be put in front of what is taken. -/
theorem cons (inert : inside c = true) (split : InertSplit inside text taken rest) :
    InertSplit inside (c :: text) (c :: taken) rest where
  append := by rw [List.cons_append, split.append]
  taken_ne_nil := List.cons_ne_nil c taken
  inert other member := by
    rcases List.mem_cons.mp member with rfl | inTaken
    · exact inert
    · exact split.inert other inTaken

end InertSplit

/-- An inert scan takes characters of a class only, and what follows the first character outside of
the class does not matter. -/
structure Inert (inside : Char → Bool) (scan : List Char → Scan) : Prop where
  splits : ∀ {text taken rest}, scan text = some (taken, rest) → InertSplit inside text taken rest
  steady : ∀ (text : List Char) {c : Char} (rest : List Char), inside c = false →
    scan (text ++ c :: rest) = extended (c :: rest) (scan text)

/-- A bounded text has a character outside of a class. -/
def Bounded (inside : Char → Bool) (text : List Char) : Prop := ∃ c ∈ text, inside c = false

/-- Inside a bounded text an inert scan does not depend on what follows the text. -/
theorem Inert.append {inside : Char → Bool} {scan : List Char → Scan} (inert : Inert inside scan)
    {text : List Char} (extension : List Char) (bounded : Bounded inside text) :
    scan (text ++ extension) = extended extension (scan text) := by
  obtain ⟨c, member, outside⟩ := bounded
  obtain ⟨front, rest, rfl⟩ := List.append_of_mem member
  rw [List.append_assoc, List.cons_append, inert.steady front (rest ++ extension) outside,
    inert.steady front rest outside]
  cases scan front with
  | none => rfl
  | some reading =>
    obtain ⟨taken, last⟩ := reading
    simp only [extended_some, List.append_assoc, List.cons_append]

/-- A scan that takes only inside characters fails at any other character. -/
theorem Inert.none_of_outside {inside : Char → Bool} {scan : List Char → Scan}
    (inert : Inert inside scan) {first : Char} (outside : inside first = false)
    (rest : List Char) : scan (first :: rest) = none := by
  have empty : scan [] = none := by
    cases found : scan [] with
    | none => rfl
    | some reading =>
      have split := inert.splits found
      have taken := split.append
      rw [List.append_eq_nil_iff] at taken
      exact absurd taken.1 split.taken_ne_nil
  have steady := inert.steady [] rest outside
  rw [empty] at steady
  exact steady

/-! ### Runs of characters -/

/-- A character of one class and the run of another class behind it, which may be empty. -/
def scanHeaded (heads holds : Char → Bool) : List Char → Scan
  | [] => none
  | c :: rest =>
    if heads c then some (c :: rest.takeWhile holds, rest.dropWhile holds) else none

/-- One character of a class. -/
def scanOne (heads : Char → Bool) : List Char → Scan := scanHeaded heads fun _ => false

@[simp] theorem scanOne_cons (heads : Char → Bool) (c : Char) (rest : List Char) :
    scanOne heads (c :: rest) = if heads c then some ([c], rest) else none := by
  cases rest <;> rfl

section Runs

variable {holds : Char → Bool}

/-- A run that stops inside a text stops at the same place of a longer text. -/
theorem takeWhile_append_of_stop {text : List Char} (extension : List Char)
    (stop : text.dropWhile holds ≠ []) :
    (text ++ extension).takeWhile holds = text.takeWhile holds ∧
      (text ++ extension).dropWhile holds = text.dropWhile holds ++ extension := by
  induction text with
  | nil => contradiction
  | cons c rest inductionHypothesis =>
    by_cases held : holds c = true
    · have same := inductionHypothesis (by simpa [held] using stop)
      simp [held, same]
    · simp [held]

/-- A run stops at the latest at a character outside of its class. -/
theorem takeWhile_append_cons (text : List Char) {c : Char} (rest : List Char)
    (stop : holds c = false) :
    (text ++ c :: rest).takeWhile holds = text.takeWhile holds ∧
      (text ++ c :: rest).dropWhile holds = text.dropWhile holds ++ c :: rest := by
  induction text with
  | nil => simp [stop]
  | cons first text inductionHypothesis =>
    by_cases held : holds first = true
    · simp [held, inductionHypothesis]
    · simp [held]

variable {inside : Char → Bool} (covers : ∀ c, holds c = true → inside c = true)

include covers

theorem fails_of_outside {c : Char} (outside : inside c = false) : holds c = false := by
  by_contra held
  rw [covers c (by simpa using held)] at outside
  contradiction

theorem inertSplit_takeWhile {text : List Char} (nonempty : text.takeWhile holds ≠ []) :
    InertSplit inside text (text.takeWhile holds) (text.dropWhile holds) where
  append := List.takeWhile_append_dropWhile
  taken_ne_nil := nonempty
  inert c member := covers c (List.mem_takeWhile_imp member)

/-- The run behind a first character may be empty. -/
theorem inertSplit_cons_takeWhile {c : Char} (first : inside c = true) (text : List Char) :
    InertSplit inside (c :: text) (c :: text.takeWhile holds) (text.dropWhile holds) where
  append := by rw [List.cons_append, List.takeWhile_append_dropWhile]
  taken_ne_nil := List.cons_ne_nil _ _
  inert other member := by
    rcases List.mem_cons.mp member with rfl | inRun
    · exact first
    · exact covers other (List.mem_takeWhile_imp inRun)

/-- A head and a run of characters stop at the first character outside. -/
theorem scanHeaded_inert {heads : Char → Bool}
    (headsCovers : ∀ c, heads c = true → inside c = true) :
    Inert inside (scanHeaded heads holds) where
  splits {text taken rest} found := by
    cases text with
    | nil => contradiction
    | cons c text =>
      rw [scanHeaded, Option.ite_none_right_eq_some] at found
      obtain ⟨isHead, same⟩ := found
      obtain ⟨rfl, rfl⟩ := Prod.mk.inj (Option.some.inj same)
      exact inertSplit_cons_takeWhile covers (headsCovers c isHead) text
  steady text c rest outside := by
    cases text with
    | nil => simp [scanHeaded, fails_of_outside headsCovers outside]
    | cons other text =>
      obtain ⟨taken, dropped⟩ := takeWhile_append_cons text rest (fails_of_outside covers outside)
      simp only [List.cons_append, scanHeaded, taken, dropped]
      split <;> rfl

/-- A run of at least one character stops at the first character outside. -/
theorem scanSome_inert : Inert inside (scanSome holds) where
  splits {text taken rest} found := by
    simp only [scanSome, scanWhile] at found
    split at found <;> try contradiction
    next taken' rest' nonempty same =>
      obtain ⟨rfl, rfl⟩ := found
      obtain ⟨rfl, rfl⟩ := Prod.mk.inj same
      exact inertSplit_takeWhile covers fun empty => by simp [empty] at nonempty
  steady text c rest outside := by
    obtain ⟨taken, dropped⟩ := takeWhile_append_cons text rest (fails_of_outside covers outside)
    simp only [scanSome, scanWhile, taken, dropped]
    cases text.takeWhile holds <;> rfl

/-- A single character of a class is decided by itself. -/
theorem scanOne_inert : Inert inside (scanOne holds) :=
  scanHeaded_inert (fun _ held => absurd held Bool.false_ne_true) covers

end Runs

/-! ### Spellings and combinations -/

section Combinations

variable {inside : Char → Bool}

/-- A spelling is not found across a character that is no part of it. -/
theorem isPrefixOf_append_cons {spelling : List Char} (text : List Char) {c : Char}
    (rest : List Char) (inert : ∀ c ∈ spelling, inside c = true) (outside : inside c = false) :
    spelling.isPrefixOf (text ++ c :: rest) = spelling.isPrefixOf text := by
  induction spelling generalizing text with
  | nil => simp
  | cons first others inductionHypothesis =>
    have firstInert := inert first (List.mem_cons_self ..)
    have othersInert := fun c member => inert c (List.mem_cons_of_mem first member)
    cases text with
    | nil =>
      have different : (first == c) = false := by
        rw [beq_eq_false_iff_ne]
        rintro rfl
        rw [firstInert] at outside
        contradiction
      rw [List.nil_append, List.isPrefixOf_cons_cons, different]
      rfl
    | cons other text =>
      rw [List.cons_append, List.isPrefixOf_cons_cons, List.isPrefixOf_cons_cons,
        inductionHypothesis text othersInert]

/-- A spelling that is found is what the text starts with. -/
theorem scanSpelling_eq_some {spelling text taken rest : List Char}
    (found : scanSpelling spelling text = some (taken, rest)) :
    taken = spelling ∧ text = spelling ++ rest := by
  unfold scanSpelling at found
  split at found <;> try contradiction
  next isPrefix =>
    obtain ⟨rfl, rfl⟩ := Prod.mk.inj (Option.some.inj found)
    obtain ⟨behind, rfl⟩ := List.isPrefixOf_iff_prefix.mp isPrefix
    rw [List.drop_left]
    exact ⟨rfl, rfl⟩

/-- A spelling is decided before the first character outside. -/
theorem scanSpelling_inert {spelling : List Char} (nonempty : spelling ≠ [])
    (inert : spelling.all inside = true) : Inert inside (scanSpelling spelling) where
  splits {text taken rest} found := by
    obtain ⟨rfl, rfl⟩ := scanSpelling_eq_some found
    exact ⟨rfl, nonempty, List.all_eq_true.mp inert⟩
  steady text c rest outside := by
    simp only [scanSpelling, isPrefixOf_append_cons text rest (List.all_eq_true.mp inert) outside]
    split
    · next isPrefix =>
      obtain ⟨others, rfl⟩ := List.isPrefixOf_iff_prefix.mp isPrefix
      simp
    · rfl

/-- Scans in a row may be grouped either way. -/
theorem andThen_assoc (first : Scan) (second third : List Char → Scan) :
    (first.andThen second).andThen third =
      first.andThen fun text => (second text).andThen third := by
  cases first with
  | none => rfl
  | some reading =>
    obtain ⟨taken, middle⟩ := reading
    simp only [Scan.andThen]
    cases second middle with
    | none => rfl
    | some reading =>
      obtain ⟨more, rest⟩ := reading
      dsimp only
      cases third rest with
      | none => rfl
      | some reading => simp only [List.append_assoc]

/-- The end of a word is looked for behind the last of the scans. -/
theorem wholeWord_andThen (first : Scan) (second : List Char → Scan) :
    (first.andThen second).wholeWord = first.andThen fun text => (second text).wholeWord := by
  cases first with
  | none => rfl
  | some reading =>
    obtain ⟨taken, middle⟩ := reading
    simp only [Scan.andThen]
    cases second middle with
    | none => rfl
    | some reading =>
      obtain ⟨more, rest⟩ := reading
      simp only [Scan.wholeWord]
      cases endsWord rest <;> rfl

namespace Inert

variable {first second : List Char → Scan}

/-- Scans in a row are decided where the later one is. -/
theorem andThen (firstInert : Inert inside first) (secondInert : Inert inside second) :
    Inert inside fun text => (first text).andThen second where
  splits {text taken rest} found := by
    simp only [Scan.andThen] at found
    split at found <;> try contradiction
    next firstTaken middle firstFound =>
      split at found <;> try contradiction
      next secondTaken last secondFound =>
        obtain ⟨rfl, rfl⟩ := found
        exact (firstInert.splits firstFound).andThen (secondInert.splits secondFound)
  steady text c rest outside := by
    simp only [Scan.andThen, firstInert.steady text rest outside]
    cases first text with
    | none => rfl
    | some reading =>
      obtain ⟨taken, middle⟩ := reading
      simp only [extended_some, secondInert.steady middle rest outside]
      cases second middle <;> rfl

/-- Asking that a word ends keeps a scan decided, since no token character lies outside. -/
theorem wholeWord {scan : List Char → Scan} (inert : Inert inside scan)
    (covers : ∀ c, Text.isTokenChar c = true → inside c = true) :
    Inert inside fun text => (scan text).wholeWord where
  splits {text taken rest} found := by
    simp only [Scan.wholeWord] at found
    split at found <;> try contradiction
    next innerFound =>
      split at found <;> try contradiction
      obtain ⟨rfl, rfl⟩ := found
      exact inert.splits innerFound
  steady text c rest outside := by
    have ends := fails_of_outside covers outside
    simp only [Scan.wholeWord, inert.steady text rest outside]
    cases scan text with
    | none => rfl
    | some reading =>
      obtain ⟨taken, last⟩ := reading
      cases last with
      | nil => simp [endsWord, ends]
      | cons other last =>
        simp only [extended_some, List.cons_append, endsWord, List.head?_cons, Option.any_some]
        by_cases goesOn : Text.isTokenChar other = true <;> simp [goesOn]

/-- A scan that falls back on another one is decided where both are. -/
theorem orElse (firstInert : Inert inside first) (secondInert : Inert inside second) :
    Inert inside fun text => match first text with
      | some scan => some scan
      | none => second text where
  splits {text taken rest} found := by
    split at found
    · next firstFound => exact firstInert.splits (firstFound.trans found)
    · exact secondInert.splits found
  steady text c rest outside := by
    simp only [firstInert.steady text rest outside, secondInert.steady text rest outside]
    cases first text <;> rfl

end Inert

end Combinations

/-! ### Token characters -/

/-- Letters are name characters. -/
theorem isNameChar_of_isAsciiLetter {c : Char} (letter : Text.isAsciiLetter c = true) :
    isNameChar c = true := by
  unfold isNameChar
  rw [letter]
  rfl

/-- Name characters are ASCII. -/
theorem toNat_lt_of_isNameChar {c : Char} (held : isNameChar c = true) : c.toNat < 128 := by
  simp only [isNameChar, Text.isAsciiLetter, Text.isAsciiDigit, Bool.or_eq_true,
    Bool.and_eq_true, decide_eq_true_eq, beq_iff_eq, Char.le_def, UInt32.le_iff_toNat_le] at held
  rcases held with (((⟨-, upper⟩ | ⟨-, upper⟩) | ⟨-, upper⟩) | rfl) | rfl
  · exact Nat.lt_of_le_of_lt upper (by decide)
  · exact Nat.lt_of_le_of_lt upper (by decide)
  · exact Nat.lt_of_le_of_lt upper (by decide)
  · decide
  · decide

/-- All characters of a name but the hyphen are token characters. -/
theorem isTokenChar_eq_of_isNameChar {c : Char} (held : isNameChar c = true) :
    Text.isTokenChar c = (c != '-') := by
  have ascii := toNat_lt_of_isNameChar held
  by_cases hyphen : c = '-'
  · subst hyphen
    decide
  · have others : (Text.isAsciiLetter c || Text.isAsciiDigit c || c == '_') = true := by
      simpa [isNameChar, hyphen] using held
    simp only [Text.isTokenChar, ascii, if_true, others]
    exact (bne_iff_ne.mpr hyphen).symm

/-- The characters of keywords, names, numbers and the ellipsis. -/
def isTokenPart (c : Char) : Bool :=
  isNameChar c || Text.isTokenChar c || Text.isDigit c || Text.isHexDigit c || c == '.' || c == '+'

theorem isTokenPart_of_isNameChar (c : Char) (held : isNameChar c = true) :
    isTokenPart c = true := by
  simp only [isTokenPart, held, Bool.true_or]

theorem isTokenPart_of_isAsciiLetter (c : Char) (held : Text.isAsciiLetter c = true) :
    isTokenPart c = true := by
  simp only [isTokenPart, isNameChar, held, Bool.true_or]

theorem isTokenPart_of_isTokenChar (c : Char) (held : Text.isTokenChar c = true) :
    isTokenPart c = true := by
  simp only [isTokenPart, held, Bool.true_or, Bool.or_true]

theorem isTokenPart_of_isDigit (c : Char) (held : Text.isDigit c = true) :
    isTokenPart c = true := by
  simp only [isTokenPart, held, Bool.true_or, Bool.or_true]

theorem isTokenPart_of_isHexDigit (c : Char) (held : Text.isHexDigit c = true) :
    isTokenPart c = true := by
  simp only [isTokenPart, held, Bool.true_or, Bool.or_true]

/-- Either of two characters is a token character when both are. -/
theorem isTokenPart_of_either {first second c : Char} (firstPart : isTokenPart first = true)
    (secondPart : isTokenPart second = true) (held : (c == first || c == second) = true) :
    isTokenPart c = true := by
  simp only [Bool.or_eq_true, beq_iff_eq] at held
  rcases held with rfl | rfl
  · exact firstPart
  · exact secondPart

/-- Every keyword is a run of token characters. -/
theorem Keyword.spelling_isTokenChar (word : Keyword) :
    word.spelling.all Text.isTokenChar = true := by
  cases word <;> decide

/-! ### Tokens -/

/-- A name is a letter with name characters behind it, and a mark may stand in front of it. -/
theorem scanName_eq : scanName = fun text =>
    match scanHeaded Text.isAsciiLetter isNameChar text with
    | some scan => some scan
    | none => (scanOne (fun c => c == '_' || c == '-') text).andThen
        (scanHeaded Text.isAsciiLetter isNameChar) := by
  funext text
  cases text with
  | nil => rfl
  | cons c text =>
    simp only [scanName, scanHeaded, scanOne_cons]
    split
    · rfl
    · split
      · cases text with
        | nil => rfl
        | cons letter after =>
          simp only [Scan.andThen, scanHeaded]
          split <;> rfl
      · rfl

/-- The two marks that may precede a name are name characters themselves. -/
theorem isNameChar_of_mark (c : Char) (mark : (c == '_' || c == '-') = true) :
    isNameChar c = true := by
  simp only [Bool.or_eq_true, beq_iff_eq] at mark
  rcases mark with rfl | rfl <;> rfl

/-- A name is decided before the first character that no name has. -/
theorem scanName_inert_of_nameChars {inside : Char → Bool}
    (covers : ∀ c, isNameChar c = true → inside c = true) : Inert inside scanName := by
  have headed : Inert inside (scanHeaded Text.isAsciiLetter isNameChar) :=
    scanHeaded_inert covers fun c held => covers c (isNameChar_of_isAsciiLetter held)
  have mark : Inert inside (scanOne fun c => c == '_' || c == '-') :=
    scanOne_inert fun c held => covers c (isNameChar_of_mark c held)
  rw [scanName_eq]
  exact headed.orElse (mark.andThen headed)

section Tokens

variable {inside : Char → Bool} (covers : ∀ c, isTokenPart c = true → inside c = true)

include covers

/-- The characters of a spelling are inside when they are parts of tokens. -/
theorem all_inside {spelling : List Char} (parts : spelling.all isTokenPart = true) :
    spelling.all inside = true :=
  List.all_eq_true.mpr fun c member => covers c (List.all_eq_true.mp parts c member)

theorem scanPart_inert {spelling : List Char} (nonempty : spelling ≠ [])
    (parts : spelling.all isTokenPart = true) : Inert inside (scanSpelling spelling) :=
  scanSpelling_inert nonempty (all_inside covers parts)

/-- A spelling that has to be a whole word is decided as well. -/
theorem scanWord_inert {spelling : List Char} (nonempty : spelling ≠ [])
    (parts : spelling.all isTokenPart = true) : Inert inside (scanKeyword spelling) :=
  (scanPart_inert covers nonempty parts).wholeWord fun c held =>
    covers c (isTokenPart_of_isTokenChar c held)

theorem scanKeyword_inert (word : Keyword) : Inert inside (scanKeyword word.spelling) :=
  scanWord_inert covers (by cases word <;> decide) (by cases word <;> decide)

/-- A modifier may stand in front of a word without moving where it is decided. -/
theorem scanModified_inert {modifier : List Char} {words : List Char → Scan}
    (spaces : ∀ c, Text.isWhiteSpace c = true → inside c = true) (nonempty : modifier ≠ [])
    (parts : modifier.all isTokenPart = true) (wordsInert : Inert inside words) :
    Inert inside (scanModified modifier words) :=
  (((scanPart_inert covers nonempty parts).andThen (scanSome_inert spaces)).andThen
    wordsInert).orElse wordsInert

/-- An integer type is decided at the first character that is no word part and no white space. -/
theorem scanInteger_inert (spaces : ∀ c, Text.isWhiteSpace c = true → inside c = true) :
    Inert inside scanInteger := by
  have long : Inert inside (scanSpelling "long".toList) :=
    scanPart_inert covers (by decide) (by decide)
  have twice := ((long.andThen (scanSome_inert spaces)).andThen long).wholeWord fun c held =>
    covers c (isTokenPart_of_isTokenChar c held)
  exact twice.orElse ((scanWord_inert covers (by decide) (by decide)).orElse
    (scanWord_inert covers (by decide) (by decide)))

theorem scanReal_inert : Inert inside scanReal :=
  (scanWord_inert covers (by decide) (by decide)).orElse
    (scanWord_inert covers (by decide) (by decide))

/-- A primitive type is decided like its words and the white space between them. -/
theorem scanPrimitive_inert (spaces : ∀ c, Text.isWhiteSpace c = true → inside c = true) :
    Inert inside scanPrimitive :=
  (scanModified_inert covers spaces (by decide) (by decide)
    (scanInteger_inert covers spaces)).orElse
    (scanModified_inert covers spaces (by decide) (by decide) (scanReal_inert covers))

theorem scanName_inert : Inert inside scanName :=
  scanName_inert_of_nameChars fun c held => covers c (isTokenPart_of_isNameChar c held)

end Tokens

/-! ### Keywords -/

def Keyword.all : List Keyword :=
  [.async, .attribute, .callback, .const, .constructor, .deleter, .dictionary, .enumeration,
    .getter, .includes, .inherit, .interface, .iterable, .maplike, .mixin, .namespace, .optional,
    .or, .partial, .readonly, .required, .setlike, .setter, .static, .stringifier, .typedef, .null,
    .yes, .no]

/-- Different keywords have different spellings. -/
theorem Keyword.spelling_injective {first second : Keyword}
    (same : first.spelling = second.spelling) : first = second := by
  have found (word : Keyword) :
      Keyword.all.find? (fun other => other.spelling == word.spelling) = some word := by
    cases word <;> rfl
  have firstFound := found first
  rw [same, found second] at firstFound
  exact (Option.some.inj firstFound).symm

/-- A keyword is found where the text starts with it and the word ends there. -/
theorem scanKeyword_isSome_iff {spelling text : List Char} :
    (scanKeyword spelling text).isSome = true ↔
      ∃ rest, text = spelling ++ rest ∧ endsWord rest = true := by
  simp only [scanKeyword, scanSpelling, Scan.wholeWord]
  constructor
  · intro present
    split at present <;> try contradiction
    next taken rest found =>
      split at found <;> try contradiction
      next isPrefix =>
        obtain ⟨-, rfl⟩ := Prod.mk.inj (Option.some.inj found)
        obtain ⟨rest, rfl⟩ := List.isPrefixOf_iff_prefix.mp isPrefix
        rw [List.drop_left] at present
        split at present
        · next ends => exact ⟨rest, rfl, ends⟩
        · contradiction
  · rintro ⟨rest, rfl, ends⟩
    simp [ends]

/-- Only one keyword stands at a place. -/
theorem scanKeyword_unique {first second : Keyword} {text : List Char}
    (firstPresent : (scanKeyword first.spelling text).isSome = true)
    (secondPresent : (scanKeyword second.spelling text).isSome = true) : first = second := by
  have longer {first second : Keyword} {firstRest secondRest : List Char}
      (same : first.spelling ++ firstRest = second.spelling ++ secondRest)
      (ends : endsWord firstRest = true) (shorter : first.spelling <+: second.spelling) :
      first = second := by
    obtain ⟨others, append⟩ := shorter
    rw [← append, List.append_assoc, List.append_cancel_left_eq] at same
    cases others with
    | nil => exact Keyword.spelling_injective (by simpa using append)
    | cons c others =>
      have goesOn : Text.isTokenChar c = true :=
        List.all_eq_true.mp second.spelling_isTokenChar c (by simp [← append])
      simp [same, endsWord, goesOn] at ends
  obtain ⟨firstRest, rfl, firstEnds⟩ := scanKeyword_isSome_iff.mp firstPresent
  obtain ⟨secondRest, same, secondEnds⟩ := scanKeyword_isSome_iff.mp secondPresent
  rcases List.prefix_or_prefix_of_prefix (List.prefix_append first.spelling firstRest)
    (same ▸ List.prefix_append second.spelling secondRest) with shorter | shorter
  · exact longer same firstEnds shorter
  · exact (longer same.symm secondEnds shorter).symm

/-! ### Numbers -/

/-- Without digits behind it a sign is no exponent, since no digit is a sign. -/
theorem scanExponent_eq : scanExponent = fun text =>
    (scanOne (fun c => c == 'e' || c == 'E') text).andThen fun rest =>
      match (scanOne (fun c => c == '+' || c == '-') rest).andThen scanDigits with
      | some scan => some scan
      | none => scanDigits rest := by
  have signed {c : Char} (isSign : (c == '+' || c == '-') = true) (rest : List Char) :
      scanDigits (c :: rest) = none := by
    simp only [Bool.or_eq_true, beq_iff_eq] at isSign
    rcases isSign with rfl | rfl <;> rfl
  funext text
  cases text with
  | nil => rfl
  | cons mark text =>
    simp only [scanExponent, scanOne_cons]
    split
    · cases text with
      | nil => rfl
      | cons sign after =>
        simp only [Scan.andThen, scanOne_cons]
        split
        · next isSign =>
          rw [signed isSign]
          dsimp only
          cases scanDigits after <;> rfl
        · cases scanDigits (sign :: after) <;> rfl
    · rfl

/-- A hexadecimal number is a zero, a mark and digits, scanned one after another. -/
theorem scanHexadecimal_eq : scanHexadecimal = fun text =>
    (scanOne (· == '0') text).andThen fun rest =>
      (scanOne (fun c => c == 'x' || c == 'X') rest).andThen (scanSome Text.isHexDigit) := by
  funext text
  cases text with
  | nil => rfl
  | cons zero text =>
    by_cases isZero : zero = '0'
    · subst isZero
      cases text with
      | nil => rfl
      | cons mark text =>
        simp only [scanHexadecimal, scanOne_cons, beq_self_eq_true, if_true, Scan.andThen]
        split
        · dsimp only
          cases scanSome Text.isHexDigit text <;> rfl
        · rfl
    · simp [scanHexadecimal, Scan.andThen, isZero]

section Numbers

variable {inside : Char → Bool} (covers : ∀ c, isTokenPart c = true → inside c = true)

include covers

theorem scanDigits_inert : Inert inside scanDigits :=
  scanSome_inert fun c held => covers c (isTokenPart_of_isDigit c held)

/-- Either of two characters that are parts of tokens is decided by itself. -/
theorem scanEither_inert {first second : Char} (firstPart : isTokenPart first = true)
    (secondPart : isTokenPart second = true) :
    Inert inside (scanOne fun c => c == first || c == second) :=
  scanOne_inert fun c held => covers c (isTokenPart_of_either firstPart secondPart held)

/-- An exponent is decided at the first character that is no part of a number. -/
theorem scanExponent_inert : Inert inside scanExponent := by
  have digits := scanDigits_inert covers
  have sign : Inert inside (scanOne fun c => c == '+' || c == '-') :=
    scanEither_inert covers (by decide) (by decide)
  rw [scanExponent_eq]
  exact (scanEither_inert covers (by decide) (by decide)).andThen
    ((sign.andThen digits).orElse digits)

/-- A number and the exponent behind it are split from the text together. -/
theorem InertSplit.optionalExponent {text taken rest : List Char}
    (split : InertSplit inside text taken rest) :
    InertSplit inside text (scanOptionalExponent taken rest).1
      (scanOptionalExponent taken rest).2 := by
  unfold scanOptionalExponent
  split
  · next found => exact split.andThen ((scanExponent_inert covers).splits found)
  · exact split

/-- An exponent that may be absent is not changed by what stands behind an outside character. -/
theorem scanOptionalExponent_append {taken : List Char} (last : List Char) {c : Char}
    (rest : List Char) (outside : inside c = false) :
    scanOptionalExponent taken (last ++ c :: rest) =
      ((scanOptionalExponent taken last).1, (scanOptionalExponent taken last).2 ++ c :: rest) := by
  simp only [scanOptionalExponent, (scanExponent_inert covers).steady last rest outside]
  cases scanExponent last <;> rfl

/-- Digits and a possible exponent are decided together. -/
theorem scanWholeNumber_inert : Inert inside scanWholeNumber where
  splits {text taken rest} found := by
    simp only [scanWholeNumber] at found
    split at found <;> try contradiction
    next digits last digitsFound =>
      have split := ((scanDigits_inert covers).splits digitsFound).optionalExponent covers
      rw [Option.some.inj found] at split
      exact split
  steady text c rest outside := by
    simp only [scanWholeNumber, (scanDigits_inert covers).steady text rest outside]
    cases scanDigits text with
    | none => rfl
    | some reading =>
      obtain ⟨digits, last⟩ := reading
      simp only [extended_some, scanOptionalExponent_append covers last rest outside]
      rfl

theorem scanHexadecimal_inert : Inert inside scanHexadecimal := by
  have zero : Inert inside (scanOne (· == '0')) :=
    scanOne_inert fun c held => covers c (by rw [beq_iff_eq.mp held]; decide)
  have digits : Inert inside (scanSome Text.isHexDigit) :=
    scanSome_inert fun c held => covers c (isTokenPart_of_isHexDigit c held)
  rw [scanHexadecimal_eq]
  exact zero.andThen ((scanEither_inert covers (by decide) (by decide)).andThen digits)

/-- A number with a point splits into its digits on both sides of the point. -/
theorem inertSplit_point {text after : List Char}
    (found : text.dropWhile Text.isDigit = '.' :: after) :
    InertSplit inside text (text.takeWhile Text.isDigit ++ '.' :: after.takeWhile Text.isDigit)
      (after.dropWhile Text.isDigit) where
  append := by
    simp only [List.append_assoc, List.cons_append, List.takeWhile_append_dropWhile, ← found]
  taken_ne_nil := by simp
  inert c member := by
    simp only [List.mem_append, List.mem_cons] at member
    rcases member with inWhole | rfl | inFraction
    · exact covers c (isTokenPart_of_isDigit c (List.mem_takeWhile_imp inWhole))
    · exact covers '.' (by decide)
    · exact covers c (isTokenPart_of_isDigit c (List.mem_takeWhile_imp inFraction))

/-- A decimal number is decided even where its point comes last. -/
theorem scanDecimal_inert : Inert inside scanDecimal where
  splits {text taken rest} found := by
    simp only [scanDecimal, scanWhile] at found
    split at found <;> try contradiction
    next whole after same =>
      obtain ⟨rfl, pointFound⟩ := Prod.mk.inj same
      by_cases bare : ((text.takeWhile Text.isDigit).isEmpty &&
          (after.takeWhile Text.isDigit).isEmpty) = true
      · simp only [bare, if_true] at found
        contradiction
      · simp only [bare, Bool.false_eq_true, if_false, Option.some.injEq] at found
        have split := (inertSplit_point covers pointFound).optionalExponent covers
        rw [found] at split
        exact split
  steady text c rest outside := by
    have notPart := fails_of_outside covers outside
    have notDigit := fails_of_outside isTokenPart_of_isDigit notPart
    have notPoint : c ≠ '.' := by
      rintro rfl
      contradiction
    obtain ⟨taken, dropped⟩ := takeWhile_append_cons text rest notDigit
    simp only [scanDecimal, scanWhile, taken, dropped]
    cases text.dropWhile Text.isDigit with
    | nil => simp [notPoint]
    | cons point after =>
      by_cases isPoint : point = '.'
      · subst isPoint
        obtain ⟨takenAfter, droppedAfter⟩ := takeWhile_append_cons after rest notDigit
        simp only [List.cons_append, takenAfter, droppedAfter,
          scanOptionalExponent_append covers (after.dropWhile Text.isDigit) rest outside]
        by_cases bare : ((text.takeWhile Text.isDigit).isEmpty &&
            (after.takeWhile Text.isDigit).isEmpty) = true
        · simp only [bare, if_true, extended_none]
        · simp only [bare, Bool.false_eq_true, if_false]
          rfl
      · simp [isPoint]

omit covers in
/-- The first of several scans that finds something is decided where all of them are. -/
theorem findSome_inert {scans : List (List Char → Scan)}
    (inert : ∀ scan ∈ scans, Inert inside scan) :
    Inert inside fun text => scans.findSome? fun scan => scan text := by
  induction scans with
  | nil => exact ⟨fun found => by contradiction, fun _ _ _ _ => rfl⟩
  | cons first others inductionHypothesis =>
    have firstInert := inert first (List.mem_cons_self ..)
    have othersInert := inductionHypothesis fun scan member =>
      inert scan (List.mem_cons_of_mem _ member)
    have same : (fun text => (first :: others).findSome? fun scan => scan text) =
        fun text => match first text with
          | some scan => some scan
          | none => others.findSome? fun scan => scan text := by
      funext text
      rw [List.findSome?_cons]
      cases first text <;> rfl
    rw [same]
    exact firstInert.orElse othersInert

/-- Every form of a number without its sign is decided. -/
theorem scanMagnitude_inert : Inert inside scanMagnitude := by
  refine findSome_inert ?_
  intro scan member
  simp only [List.mem_cons, List.not_mem_nil, or_false] at member
  rcases member with rfl | rfl | rfl | rfl | rfl
  · exact scanPart_inert covers (by decide) (by decide)
  · exact scanPart_inert covers (by decide) (by decide)
  · exact scanHexadecimal_inert covers
  · exact scanDecimal_inert covers
  · exact scanWholeNumber_inert covers

/-- A sign in front of a number does not change where it is decided. -/
theorem scanNumber_inert : Inert inside scanNumber where
  splits {text taken rest} found := by
    simp only [scanNumber] at found
    split at found
    · split at found <;> try contradiction
      next magnitude last magnitudeFound =>
        obtain ⟨rfl, rfl⟩ := found
        exact .cons (covers '-' (by decide)) ((scanMagnitude_inert covers).splits magnitudeFound)
    · exact (scanMagnitude_inert covers).splits found
  steady text c rest outside := by
    have notPart := fails_of_outside covers outside
    have notSign : c ≠ '-' := by
      rintro rfl
      contradiction
    have steadyText (text : List Char) := (scanMagnitude_inert covers).steady text rest outside
    cases text with
    | nil => simpa [scanNumber, notSign] using steadyText []
    | cons sign text =>
      by_cases isSign : sign = '-'
      · subst isSign
        simp only [List.cons_append, scanNumber, steadyText text]
        cases scanMagnitude text <;> rfl
      · simpa [scanNumber, isSign] using steadyText (sign :: text)

end Numbers

/-! ### Blanks -/

/-- Leaving a block comment leaves an end of the text. -/
theorem afterBlockComment_suffix {text rest : List Char}
    (found : afterBlockComment text = some rest) : rest <:+ text := by
  induction text using afterBlockComment.induct with
  | case1 => contradiction
  | case2 inner =>
    obtain rfl := Option.some.inj found
    exact (List.suffix_cons _ _).trans (List.suffix_cons _ _)
  | case3 c inner notEnd inductionHypothesis =>
    rw [afterBlockComment] at found
    · exact (inductionHypothesis found).trans (List.suffix_cons _ _)
    · exact notEnd

/-- A blank item is passed before the rest of the blank. -/
theorem afterBlank_of_some {text rest : List Char} (found : afterBlankItem text = some rest) :
    afterBlank text = afterBlank rest := by
  rw [afterBlank]
  split
  · next other otherFound =>
    rw [found] at otherFound
    obtain rfl := Option.some.inj otherFound
    rfl
  · next missing =>
    rw [found] at missing
    contradiction

/-- A blank ends where no blank item begins. -/
theorem afterBlank_of_none {text : List Char} (missing : afterBlankItem text = none) :
    afterBlank text = text := by
  rw [afterBlank]
  split
  · next other found =>
    rw [missing] at found
    contradiction
  · rfl

/-- Only white space is a blank item that does not begin with a slash. -/
theorem afterBlankItem_of_ne_slash {c : Char} (notSlash : c ≠ '/') (rest : List Char) :
    afterBlankItem (c :: rest) = if Text.isWhiteSpace c then some rest else none := by
  simp [afterBlankItem, notSlash]

/-- A blank item is a line comment, a block comment or a white space character. -/
theorem afterBlankItem_cases {text rest : List Char} (found : afterBlankItem text = some rest) :
    (∃ comment, text = '/' :: '/' :: comment ∧ comment.dropWhile (· != '\n') = rest) ∨
      (∃ comment, text = '/' :: '*' :: comment ∧ afterBlockComment comment = some rest) ∨
      ∃ c, text = c :: rest ∧ c ≠ '/' ∧ Text.isWhiteSpace c = true := by
  unfold afterBlankItem at found
  split at found
  · next comment => exact .inl ⟨comment, rfl, Option.some.inj found⟩
  · next comment => exact .inr (.inl ⟨comment, rfl, found⟩)
  · next c behind _ _ =>
    split at found <;> try contradiction
    next isSpace =>
      obtain rfl := Option.some.inj found
      refine .inr (.inr ⟨c, rfl, ?_, isSpace⟩)
      rintro rfl
      contradiction
  · contradiction

/-- What follows a blank item is an end of the text. -/
theorem afterBlankItem_suffix {text rest : List Char} (found : afterBlankItem text = some rest) :
    rest <:+ text := by
  rcases afterBlankItem_cases found with ⟨comment, rfl, rfl⟩ | ⟨comment, rfl, left⟩ | ⟨c, rfl, -⟩
  · exact ((List.dropWhile_suffix _).trans (List.suffix_cons _ _)).trans (List.suffix_cons _ _)
  · exact ((afterBlockComment_suffix left).trans (List.suffix_cons _ _)).trans
      (List.suffix_cons _ _)
  · exact List.suffix_cons c rest

/-- What follows a blank is an end of the text. -/
theorem afterBlank_suffix (text : List Char) : afterBlank text <:+ text := by
  induction text using afterBlank.induct with
  | case1 text rest found inductionHypothesis =>
    rw [afterBlank_of_some found]
    exact inductionHypothesis.trans (afterBlankItem_suffix found)
  | case2 text missing =>
    simp only [afterBlank_of_none missing, List.suffix_refl]

/-! ### Splits of a text by a token -/

theorem scan_symbol {mark : Char} {text taken rest : List Char}
    (found : Token.scan (.symbol mark) text = some (taken, rest)) : text = mark :: rest :=
  (scanSpelling_eq_some found).2

/-- A quoted text takes at least its quotes and leaves the rest of the text. -/
theorem scanQuoted_split {text taken rest : List Char}
    (found : scanQuoted text = some (taken, rest)) : taken ++ rest = text ∧ taken ≠ [] := by
  cases text with
  | nil => contradiction
  | cons c text =>
    simp only [scanQuoted, scanWhile] at found
    split at found <;> try contradiction
    split at found <;> try contradiction
    next content closing after same =>
      obtain ⟨rfl, dropped⟩ := Prod.mk.inj same
      obtain ⟨rfl, rfl⟩ := found
      refine ⟨?_, by simp⟩
      rw [List.append_assoc, List.cons_append, List.singleton_append, ← dropped,
        List.takeWhile_append_dropWhile]

/-- A blank takes what it leaves out. -/
theorem scanBlank_split {text taken rest : List Char}
    (found : scanBlank text = some (taken, rest)) : taken ++ rest = text := by
  obtain ⟨rfl, rfl⟩ := Prod.mk.inj (Option.some.inj found)
  exact List.suffix_iff_eq_append.mp (afterBlank_suffix text)

/-- A scan takes the text in front of the rest, and only a blank may be empty. -/
theorem Token.scan_split {kind : Token} {text taken rest : List Char}
    (found : kind.scan text = some (taken, rest)) :
    taken ++ rest = text ∧ (kind ≠ .blank → taken ≠ []) := by
  have all (c : Char) (part : isTokenPart c = true) : (fun _ : Char => true) c = true := rfl
  have inertSplit {scan : List Char → Scan} (inert : Inert (fun _ => true) scan)
      (found : scan text = some (taken, rest)) :
      taken ++ rest = text ∧ (kind ≠ .blank → taken ≠ []) :=
    ⟨(inert.splits found).append, fun _ => (inert.splits found).taken_ne_nil⟩
  cases kind with
  | blank => exact ⟨scanBlank_split found, fun notBlank => absurd rfl notBlank⟩
  | symbol mark => exact inertSplit (scanSpelling_inert (List.cons_ne_nil mark []) rfl) found
  | ellipsis => exact inertSplit (scanPart_inert all (by decide) (by decide)) found
  | keyword word => exact inertSplit (scanKeyword_inert all word) found
  | name => exact inertSplit (scanName_inert all) found
  | primitive => exact inertSplit (scanPrimitive_inert all fun _ _ => rfl) found
  | number => exact inertSplit (scanNumber_inert all) found
  | quoted => exact (scanQuoted_split found).imp_right fun nonempty _ => nonempty

end InterfaceAudit.Idl
