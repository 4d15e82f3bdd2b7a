import InterfaceAudit.Proofs.Idl.Name
import InterfaceAudit.Proofs.Text.Case
import InterfaceAudit.Text.Kebab
import Mathlib

/-!
Kebab names.
The kebab name of an identifier spells it in small letters, with one hyphen at every boundary of its
words and none elsewhere. No other text does so, and a kebab name is its own kebab name.
-/

namespace InterfaceAudit.Text

/-- A word ends with the front part and another one begins with the back part: at a capital behind a
small letter or a digit, and at a capital between a capital and a small letter. -/
inductive WordBoundary : List Char → List Char → Prop where
  | afterSmall {last first : Char} (front back : List Char)
      (small : isLower last = true ∨ isAsciiDigit last = true) (capital : isUpper first = true) :
      WordBoundary (front ++ [last]) (first :: back)
  | beforeSmall {last first next : Char} (front back : List Char)
      (lastCapital : isUpper last = true) (capital : isUpper first = true)
      (small : isLower next = true) :
      WordBoundary (front ++ [last]) (first :: next :: back)

def withoutHyphens (text : List Char) : List Char := text.filter (· != '-')

/-- A hyphen of the text stands behind the spelling of the front part and in front of the spelling
of the back part. -/
def HyphenBetween (front back text : List Char) : Prop :=
  ∃ before behind, text = before ++ '-' :: behind ∧
    withoutHyphens before = front ∧ withoutHyphens behind = back

/-- No hyphen stands behind another one. -/
def SingleHyphens (text : List Char) : Prop := text.IsChain fun c d => ¬(c = '-' ∧ d = '-')

/-- A text spells a name in small letters, with single hyphens between its words. -/
structure Hyphenates (name text : List Char) : Prop where
  spells : withoutHyphens text = lower name
  starts : text.head? ≠ some '-'
  ends : text.getLast? ≠ some '-'
  single : SingleHyphens text
  between : ∀ front back, name = front ++ back →
    (HyphenBetween (lower front) (lower back) text ↔ WordBoundary front back)

/-! ### Boundaries -/

/-- A word starts at a capital behind a small character, or in front of one behind a capital. -/
theorem isWordStart_iff {last first : Char} {after : Option Char} :
    isWordStart last first after = true ↔ isUpper first = true ∧
      ((isLower last = true ∨ isAsciiDigit last = true) ∨
        (isUpper last = true ∧ ∃ next ∈ after, isLower next = true)) := by
  cases after <;> simp [isWordStart]

/-- A boundary is decided by the characters beside it and the one after. -/
theorem wordBoundary_iff {front back : List Char} :
    WordBoundary front back ↔ ∃ last ∈ front.getLast?, ∃ first rest, back = first :: rest ∧
      isWordStart last first rest.head? = true := by
  constructor
  · intro boundary
    cases boundary with
    | @afterSmall last first front back small capital =>
      exact ⟨last, by simp, first, back, rfl, isWordStart_iff.mpr ⟨capital, .inl small⟩⟩
    | @beforeSmall last first next front back lastCapital capital small =>
      exact ⟨last, by simp, first, next :: back, rfl,
        isWordStart_iff.mpr ⟨capital, .inr ⟨lastCapital, next, rfl, small⟩⟩⟩
  · rintro ⟨last, isLast, first, rest, rfl, starts⟩
    obtain ⟨front, rfl⟩ := List.getLast?_eq_some_iff.mp isLast
    obtain ⟨capital, small | ⟨lastCapital, next, isNext, small⟩⟩ := isWordStart_iff.mp starts
    · exact .afterSmall front rest small capital
    · obtain ⟨back, rfl⟩ := List.head?_eq_some_iff.mp isNext
      exact .beforeSmall front back lastCapital capital small

/-- Only the last character of the front part counts. -/
theorem wordBoundary_cons_cons (c d : Char) (front back : List Char) :
    WordBoundary (c :: d :: front) back ↔ WordBoundary (d :: front) back := by
  rw [wordBoundary_iff, wordBoundary_iff, List.getLast?_cons_cons]

/-- The first boundary is decided by the first three characters. -/
theorem wordBoundary_singleton (c d : Char) (back : List Char) :
    WordBoundary [c] (d :: back) ↔ isWordStart c d back.head? = true := by
  simp [wordBoundary_iff]

theorem not_wordBoundary_nil (back : List Char) : ¬WordBoundary [] back := by
  simp [wordBoundary_iff]

/-! ### Hyphens of a text -/

theorem withoutHyphens_cons {c : Char} (other : c ≠ '-') (text : List Char) :
    withoutHyphens (c :: text) = c :: withoutHyphens text :=
  List.filter_cons_of_pos (bne_iff_ne.mpr other)

theorem withoutHyphens_hyphen (text : List Char) :
    withoutHyphens ('-' :: text) = withoutHyphens text :=
  List.filter_cons_of_neg (by decide)

theorem withoutHyphens_append (front back : List Char) :
    withoutHyphens (front ++ back) = withoutHyphens front ++ withoutHyphens back :=
  List.filter_append ..

/-- Texts with the same other characters keep them behind one more. -/
theorem withoutHyphens_cons_congr {c : Char} {text other : List Char}
    (same : withoutHyphens text = withoutHyphens other) :
    withoutHyphens (c :: text) = withoutHyphens (c :: other) := by
  rw [← List.singleton_append, withoutHyphens_append, same, ← withoutHyphens_append,
    List.singleton_append]

theorem withoutHyphens_eq_self {text : List Char} (unhyphenated : ∀ c ∈ text, c ≠ '-') :
    withoutHyphens text = text :=
  List.filter_eq_self.mpr fun c member => bne_iff_ne.mpr (unhyphenated c member)

theorem not_hyphenBetween_nil (front back : List Char) : ¬HyphenBetween front back [] := by
  rintro ⟨before, behind, empty, -, -⟩
  simp at empty

/-- Behind another character the places of hyphens are those of the rest. -/
theorem hyphenBetween_cons {c : Char} (other : c ≠ '-') {front back text : List Char} :
    HyphenBetween front back (c :: text) ↔
      ∃ rest, front = c :: rest ∧ HyphenBetween rest back text := by
  constructor
  · rintro ⟨before, behind, same, rfl, rfl⟩
    cases before with
    | nil => exact absurd (List.cons.inj same).1 other
    | cons d before =>
      obtain ⟨rfl, rfl⟩ := List.cons.inj same
      exact ⟨_, withoutHyphens_cons other before, before, behind, rfl, rfl, rfl⟩
  · rintro ⟨_, rfl, before, behind, rfl, rfl, rfl⟩
    exact ⟨c :: before, behind, rfl, withoutHyphens_cons other before, rfl⟩

/-- A hyphen stands in front of the rest, or between two parts of it. -/
theorem hyphenBetween_hyphen {front back text : List Char} :
    HyphenBetween front back ('-' :: text) ↔
      (front = [] ∧ back = withoutHyphens text) ∨ HyphenBetween front back text := by
  constructor
  · rintro ⟨before, behind, same, rfl, rfl⟩
    cases before with
    | nil =>
      obtain ⟨-, rfl⟩ := List.cons.inj same
      exact .inl ⟨rfl, rfl⟩
    | cons d before =>
      obtain ⟨rfl, rfl⟩ := List.cons.inj same
      exact .inr ⟨before, behind, rfl, (withoutHyphens_hyphen before).symm, rfl⟩
  · rintro (⟨rfl, rfl⟩ | ⟨before, behind, rfl, rfl, rfl⟩)
    · exact ⟨[], text, rfl, rfl, rfl⟩
    · exact ⟨'-' :: before, behind, rfl, withoutHyphens_hyphen before, rfl⟩

/-- The two sides of a hyphen make up the other characters. -/
theorem HyphenBetween.append_eq {front back text : List Char}
    (found : HyphenBetween front back text) : front ++ back = withoutHyphens text := by
  obtain ⟨before, behind, rfl, rfl, rfl⟩ := found
  rw [withoutHyphens_append, withoutHyphens_hyphen]

/-- A text that begins with a hyphen has one in front of everything else. -/
theorem head?_eq_hyphen_iff {text : List Char} :
    text.head? = some '-' ↔ ∃ back, HyphenBetween [] back text := by
  cases text with
  | nil => simp [not_hyphenBetween_nil]
  | cons c text =>
    by_cases hyphen : c = '-'
    · subst hyphen
      exact iff_of_true rfl ⟨_, hyphenBetween_hyphen.mpr (.inl ⟨rfl, rfl⟩)⟩
    · simp [hyphen, hyphenBetween_cons hyphen]

/-- Hyphens are single when the first two characters are not both hyphens. -/
theorem singleHyphens_cons {c : Char} {text : List Char} :
    SingleHyphens (c :: text) ↔ (c = '-' → text.head? ≠ some '-') ∧ SingleHyphens text := by
  refine List.isChain_cons.trans (and_congr_left fun _ => ?_)
  cases text <;> simp

/-- Whether a hyphen comes first is read off the places of hyphens. -/
theorem head?_eq_hyphen_congr {text other : List Char}
    (places : ∀ front back, HyphenBetween front back text ↔ HyphenBetween front back other) :
    text.head? = some '-' ↔ other.head? = some '-' := by
  rw [head?_eq_hyphen_iff, head?_eq_hyphen_iff]
  exact exists_congr (places [])

/-- A text is told by its other characters and the places of its hyphens. -/
theorem eq_of_hyphenBetween {text other : List Char}
    (spells : withoutHyphens text = withoutHyphens other) (single : SingleHyphens text)
    (otherSingle : SingleHyphens other)
    (places : ∀ front back, HyphenBetween front back text ↔ HyphenBetween front back other) :
    text = other := by
  have starts := head?_eq_hyphen_congr places
  induction text generalizing other with
  | nil =>
    cases other with
    | nil => rfl
    | cons d other =>
      have notHyphen : d ≠ '-' := by simpa using starts
      rw [withoutHyphens_cons notHyphen] at spells
      contradiction
  | cons c text inductionHypothesis =>
    by_cases hyphen : c = '-'
    · subst hyphen
      obtain ⟨rest, rfl⟩ := List.head?_eq_some_iff.mp (starts.mp rfl)
      obtain ⟨notBehind, single⟩ := singleHyphens_cons.mp single
      obtain ⟨notBehindOther, otherSingle⟩ := singleHyphens_cons.mp otherSingle
      rw [withoutHyphens_hyphen, withoutHyphens_hyphen] at spells
      have places front back : HyphenBetween front back text ↔ HyphenBetween front back rest := by
        have both := places front back
        rw [hyphenBetween_hyphen, hyphenBetween_hyphen, spells] at both
        -- The hyphen at the start is the only one with nothing in front of it.
        by_cases empty : front = []
        · subst empty
          exact iff_of_false (fun found => notBehind rfl (head?_eq_hyphen_iff.mpr ⟨back, found⟩))
            fun found => notBehindOther rfl (head?_eq_hyphen_iff.mpr ⟨back, found⟩)
        · simpa [empty] using both
      rw [inductionHypothesis spells single otherSingle places (head?_eq_hyphen_congr places)]
    · cases other with
      | nil =>
        rw [withoutHyphens_cons hyphen] at spells
        contradiction
      | cons d rest =>
        have notHyphen : d ≠ '-' := by simpa [hyphen] using starts
        rw [withoutHyphens_cons hyphen, withoutHyphens_cons notHyphen] at spells
        obtain ⟨rfl, restSpells⟩ := List.cons.inj spells
        have places front back :
            HyphenBetween front back text ↔ HyphenBetween front back rest := by
          simpa [hyphenBetween_cons hyphen] using places (c :: front) back
        rw [inductionHypothesis restSpells (singleHyphens_cons.mp single).2
          (singleHyphens_cons.mp otherSingle).2 places (head?_eq_hyphen_congr places)]

/-! ### Hyphenation -/

section Hyphenation

variable {before : Char} {text : List Char}

/-- Hyphenation keeps all other characters in their order. -/
theorem withoutHyphens_hyphenateAfter :
    withoutHyphens (hyphenateAfter before text) = withoutHyphens text := by
  induction text generalizing before with
  | nil => rfl
  | cons c rest inductionHypothesis =>
    rw [hyphenateAfter]
    split
    · rw [withoutHyphens_hyphen, withoutHyphens_cons_congr inductionHypothesis]
    · rw [withoutHyphens_cons_congr inductionHypothesis]

/-- A hyphen is put only between two other characters. -/
theorem singleHyphens_hyphenateAfter (notHyphen : before ≠ '-')
    (unhyphenated : ∀ c ∈ text, c ≠ '-') :
    SingleHyphens (before :: hyphenateAfter before text) := by
  induction text generalizing before with
  | nil => exact List.isChain_singleton _
  | cons c rest inductionHypothesis =>
    obtain ⟨nextNotHyphen, unhyphenated⟩ := List.forall_mem_cons.mp unhyphenated
    have tail := inductionHypothesis nextNotHyphen unhyphenated
    rw [hyphenateAfter]
    split
    · exact singleHyphens_cons.mpr ⟨fun hyphen => absurd hyphen notHyphen,
        singleHyphens_cons.mpr ⟨fun _ => by simpa using nextNotHyphen, tail⟩⟩
    · exact singleHyphens_cons.mpr ⟨fun hyphen => absurd hyphen notHyphen, tail⟩

/-- No hyphen is put at the end. -/
theorem getLast?_hyphenateAfter :
    (before :: hyphenateAfter before text).getLast? = (before :: text).getLast? := by
  induction text generalizing before with
  | nil => rfl
  | cons c rest inductionHypothesis =>
    rw [List.getLast?_cons_cons, ← inductionHypothesis, hyphenateAfter]
    split <;> rfl

/-- With a character in front, the hyphens that stood at boundaries behind it still do. -/
theorem hyphenBetween_cons_iff {c : Char} (notHyphen : c ≠ '-') {rest back : List Char}
    (places : ∀ front, HyphenBetween front back text ↔
      front ++ back = rest ∧ WordBoundary (c :: front) back) (front : List Char) :
    HyphenBetween front back (c :: text) ↔
      front ++ back = c :: rest ∧ WordBoundary front back := by
  rw [hyphenBetween_cons notHyphen]
  constructor
  · rintro ⟨front, rfl, found⟩
    obtain ⟨rfl, boundary⟩ := (places front).mp found
    exact ⟨rfl, boundary⟩
  · rintro ⟨same, boundary⟩
    cases front with
    | nil => exact absurd boundary (not_wordBoundary_nil back)
    | cons d front =>
      obtain ⟨rfl, spelled⟩ := List.cons.inj same
      exact ⟨front, rfl, (places front).mpr ⟨spelled, boundary⟩⟩

/-- Hyphens are put at the boundaries behind the given character, by induction on the text. -/
theorem hyphenBetween_hyphenateAfter (unhyphenated : ∀ c ∈ text, c ≠ '-')
    (front back : List Char) :
    HyphenBetween front back (hyphenateAfter before text) ↔
      front ++ back = text ∧ WordBoundary (before :: front) back := by
  induction text generalizing before front with
  | nil =>
    rw [hyphenateAfter]
    refine iff_of_false (not_hyphenBetween_nil front back) ?_
    rintro ⟨empty, boundary⟩
    obtain ⟨rfl, rfl⟩ := List.append_eq_nil_iff.mp empty
    simp [wordBoundary_iff] at boundary
  | cons c rest inductionHypothesis =>
    obtain ⟨notHyphen, unhyphenated⟩ := List.forall_mem_cons.mp unhyphenated
    have behind := hyphenBetween_cons_iff notHyphen (inductionHypothesis unhyphenated) front
    -- The first step decides the place in front of `c`; every other place lies behind `c`.
    rw [hyphenateAfter]
    cases front with
    | nil =>
      have absent : ¬HyphenBetween [] back (c :: hyphenateAfter c rest) :=
        behind.not.mpr fun found => not_wordBoundary_nil back found.2
      split
      · next starts =>
        rw [hyphenBetween_hyphen, withoutHyphens_cons notHyphen,
          withoutHyphens_hyphenateAfter, withoutHyphens_eq_self unhyphenated, or_iff_left absent]
        constructor
        · rintro ⟨-, rfl⟩
          exact ⟨rfl, (wordBoundary_singleton before c rest).mpr starts⟩
        · exact fun found => ⟨rfl, found.1⟩
      · next inside =>
        refine iff_of_false absent ?_
        rintro ⟨rfl, boundary⟩
        exact inside ((wordBoundary_singleton before c rest).mp boundary)
    | cons d front =>
      rw [← wordBoundary_cons_cons before] at behind
      split
      · rw [hyphenBetween_hyphen, behind]
        simp
      · exact behind

/-- Without capitals there is no boundary. -/
theorem hyphenateAfter_eq_self (small : ∀ c ∈ text, isUpper c = false) :
    hyphenateAfter before text = text := by
  induction text generalizing before with
  | nil => rfl
  | cons c rest inductionHypothesis =>
    obtain ⟨first, others⟩ := List.forall_mem_cons.mp small
    rw [hyphenateAfter, inductionHypothesis others, isWordStart, first]
    rfl

/-- Hyphenation spells the same word. -/
theorem withoutHyphens_hyphenate (text : List Char) :
    withoutHyphens (hyphenate text) = withoutHyphens text := by
  cases text with
  | nil => rfl
  | cons c rest => exact withoutHyphens_cons_congr withoutHyphens_hyphenateAfter

/-- Hyphenation brings no characters but hyphens. -/
theorem mem_of_mem_hyphenate {c : Char} (member : c ∈ hyphenate text) : c = '-' ∨ c ∈ text := by
  refine or_iff_not_imp_left.mpr fun notHyphen => ?_
  have kept : c ∈ withoutHyphens (hyphenate text) :=
    List.mem_filter.mpr ⟨member, bne_iff_ne.mpr notHyphen⟩
  rw [withoutHyphens_hyphenate] at kept
  exact (List.mem_filter.mp kept).1

/-- A name without hyphens gets single ones. -/
theorem singleHyphens_hyphenate (unhyphenated : ∀ c ∈ text, c ≠ '-') :
    SingleHyphens (hyphenate text) := by
  cases text with
  | nil => exact List.isChain_nil
  | cons c rest =>
    obtain ⟨notHyphen, unhyphenated⟩ := List.forall_mem_cons.mp unhyphenated
    exact singleHyphens_hyphenateAfter notHyphen unhyphenated

theorem head?_hyphenate (text : List Char) : (hyphenate text).head? = text.head? := by
  cases text <;> rfl

theorem getLast?_hyphenate (text : List Char) : (hyphenate text).getLast? = text.getLast? := by
  cases text with
  | nil => rfl
  | cons c rest => exact getLast?_hyphenateAfter

/-- Hyphens stand exactly at the boundaries of the words. -/
theorem hyphenBetween_hyphenate (unhyphenated : ∀ c ∈ text, c ≠ '-') (front back : List Char) :
    HyphenBetween front back (hyphenate text) ↔ front ++ back = text ∧ WordBoundary front back := by
  cases text with
  | nil =>
    refine iff_of_false (not_hyphenBetween_nil front back) ?_
    rintro ⟨empty, boundary⟩
    obtain ⟨rfl, rfl⟩ := List.append_eq_nil_iff.mp empty
    exact not_wordBoundary_nil [] boundary
  | cons c rest =>
    obtain ⟨notHyphen, unhyphenated⟩ := List.forall_mem_cons.mp unhyphenated
    exact hyphenBetween_cons_iff notHyphen
      (fun front => hyphenBetween_hyphenateAfter unhyphenated front back) front

/-- Where there are no capitals, there are no boundaries. -/
theorem hyphenate_eq_self (small : ∀ c ∈ text, isUpper c = false) : hyphenate text = text := by
  cases text with
  | nil => rfl
  | cons c rest =>
    exact congrArg (c :: ·) (hyphenateAfter_eq_self (List.forall_mem_cons.mp small).2)

end Hyphenation

/-! ### Small letters -/

theorem isUpper_eq (c : Char) : isUpper c = c.isUpper := by
  simp [isUpper, Char.isUpper, Char.le_def]

/-- Lowering turns nothing else into a hyphen. -/
theorem toLower_eq_hyphen_iff {c : Char} : c.toLower = '-' ↔ c = '-' := by
  constructor
  · intro same
    by_cases capital : c.isUpper = true
    · have letter := Char.isLower_toLower_eq_isAlpha c
      rw [same, Char.isAlpha, capital] at letter
      contradiction
    · rwa [Char.toLower_eq_of_not_isUpper capital] at same
  · rintro rfl
    rfl

/-- Lowering the letters and dropping the hyphens may be done in either order. -/
theorem withoutHyphens_map_toLower (text : List Char) :
    withoutHyphens (text.map Char.toLower) = (withoutHyphens text).map Char.toLower := by
  rw [withoutHyphens, List.filter_map]
  refine congrArg (List.map Char.toLower) (List.filter_congr fun c _ => ?_)
  rw [Function.comp_apply, Bool.eq_iff_iff, bne_iff_ne, bne_iff_ne, Ne, toLower_eq_hyphen_iff]

theorem singleHyphens_map_toLower {text : List Char} (single : SingleHyphens text) :
    SingleHyphens (text.map Char.toLower) := by
  simpa only [SingleHyphens, List.isChain_map, toLower_eq_hyphen_iff] using single

/-- Lowering leaves every hyphen where it is. -/
theorem hyphenBetween_map_toLower {front back text : List Char} :
    HyphenBetween front back (text.map Char.toLower) ↔ ∃ first second,
      first.map Char.toLower = front ∧ second.map Char.toLower = back ∧
        HyphenBetween first second text := by
  constructor
  · rintro ⟨before, behind, same, rfl, rfl⟩
    obtain ⟨before, others, rfl, rfl, split⟩ := List.map_eq_append_iff.mp same
    obtain ⟨c, behind, rfl, hyphen, rfl⟩ := List.map_eq_cons_iff.mp split
    obtain rfl := toLower_eq_hyphen_iff.mp hyphen
    exact ⟨_, _, (withoutHyphens_map_toLower before).symm,
      (withoutHyphens_map_toLower behind).symm, before, behind, rfl, rfl, rfl⟩
  · rintro ⟨_, _, rfl, rfl, before, behind, rfl, rfl, rfl⟩
    exact ⟨before.map Char.toLower, behind.map Char.toLower, List.map_append,
      withoutHyphens_map_toLower before, withoutHyphens_map_toLower behind⟩

/-! ### Kebab names -/

section Kebab

variable {name : List Char} (ascii : ∀ c ∈ name, c.toNat < 128)

include ascii

/-- A name of ASCII characters stays one when it is hyphenated. -/
theorem hyphenate_ascii : ∀ c ∈ hyphenate name, c.toNat < 128 := by
  intro c member
  rcases mem_of_mem_hyphenate member with rfl | inName
  · decide
  · exact ascii c inName

/-- On ASCII names the whole text is lowered character by character. -/
theorem kebab_eq_map : kebab name = (hyphenate name).map Char.toLower :=
  lower_eq_map (hyphenate_ascii ascii)

/-- A kebab name has no capitals left, so it is its own kebab name. -/
theorem kebab_kebab : kebab (kebab name) = kebab name := by
  have same := kebab_eq_map ascii
  have small : ∀ c ∈ kebab name, c.toNat < 128 ∧ isUpper c = false := by
    intro c member
    rw [same] at member
    obtain ⟨d, inside, rfl⟩ := List.mem_map.mp member
    exact ⟨toNat_toLower_lt (hyphenate_ascii ascii d inside),
      (isUpper_eq _).trans (Char.isUpper_toLower_eq_false d)⟩
  calc
    kebab (kebab name) = (hyphenate (kebab name)).map Char.toLower :=
      kebab_eq_map fun c member => (small c member).1
    _ = (kebab name).map Char.toLower := by
      rw [hyphenate_eq_self fun c member => (small c member).2]
    _ = kebab name := by simp [same]

/-- The kebab name has its hyphens exactly at the boundaries. -/
theorem hyphenates_kebab (unhyphenated : ∀ c ∈ name, c ≠ '-') : Hyphenates name (kebab name) := by
  have same := kebab_eq_map ascii
  exact
    { spells := by
        rw [same, withoutHyphens_map_toLower, withoutHyphens_hyphenate,
          withoutHyphens_eq_self unhyphenated, lower_eq_map ascii]
      starts := by
        rw [same, List.head?_map, head?_hyphenate, Ne, Option.map_eq_some_iff]
        rintro ⟨c, first, hyphen⟩
        exact unhyphenated c (List.mem_of_head? first) (toLower_eq_hyphen_iff.mp hyphen)
      ends := by
        rw [same, List.getLast?_map, getLast?_hyphenate, Ne, Option.map_eq_some_iff]
        rintro ⟨c, last, hyphen⟩
        exact unhyphenated c (List.mem_of_getLast? last) (toLower_eq_hyphen_iff.mp hyphen)
      single := same ▸ singleHyphens_map_toLower (singleHyphens_hyphenate unhyphenated)
      between := by
        rintro front back rfl
        obtain ⟨frontAscii, backAscii⟩ := List.forall_mem_append.mp ascii
        rw [same, hyphenBetween_map_toLower, lower_eq_map frontAscii, lower_eq_map backAscii]
        constructor
        · rintro ⟨first, second, sameFront, -, found⟩
          obtain ⟨split, boundary⟩ := (hyphenBetween_hyphenate unhyphenated first second).mp found
          obtain ⟨rfl, rfl⟩ := List.append_inj split (by simpa using congrArg List.length sameFront)
          exact boundary
        · intro boundary
          exact ⟨front, back, rfl, rfl,
            (hyphenBetween_hyphenate unhyphenated front back).mpr ⟨rfl, boundary⟩⟩ }

/-- Every hyphen of the text stands at a boundary of the name. -/
theorem Hyphenates.hyphenBetween_iff {text : List Char} (hyphenates : Hyphenates name text)
    (front back : List Char) : HyphenBetween front back text ↔ ∃ first second,
      name = first ++ second ∧ lower first = front ∧ lower second = back ∧
        WordBoundary first second := by
  constructor
  · intro found
    have spelled := found.append_eq.trans (hyphenates.spells.trans (lower_eq_map ascii))
    obtain ⟨first, second, rfl, rfl, rfl⟩ := List.map_eq_append_iff.mp spelled.symm
    obtain ⟨firstAscii, secondAscii⟩ := List.forall_mem_append.mp ascii
    rw [← lower_eq_map firstAscii, ← lower_eq_map secondAscii] at found ⊢
    exact ⟨first, second, rfl, rfl, rfl, (hyphenates.between first second rfl).mp found⟩
  · rintro ⟨first, second, split, rfl, rfl, boundary⟩
    exact (hyphenates.between first second split).mpr boundary

/-- The places of the hyphens and the other characters determine the text. -/
theorem Hyphenates.unique {text other : List Char} (first : Hyphenates name text)
    (second : Hyphenates name other) : text = other :=
  eq_of_hyphenBetween (first.spells.trans second.spells.symm) first.single second.single
    fun front back => (first.hyphenBetween_iff ascii front back).trans
      (second.hyphenBetween_iff ascii front back).symm

end Kebab

end InterfaceAudit.Text

namespace InterfaceAudit

open Text (Hyphenates)

/-- The kebab name of an identifier is the one text that spells it in small letters with single
hyphens between its words, and it is its own kebab name. -/
theorem kebabCase_hyphenates (name : String)
    (isName : Idl.scanName name.toList = some (name.toList, []))
    (unhyphenated : '-' ∉ name.toList) :
    Hyphenates name.toList (kebabCase name).toList ∧
      (∀ text : String, Hyphenates name.toList text.toList → text = kebabCase name) ∧
      kebabCase (kebabCase name) = kebabCase name := by
  have spelled : (kebabCase name).toList = Text.kebab name.toList := String.toList_ofList
  have ascii : ∀ c ∈ name.toList, c.toNat < 128 := by
    have isIdentifier := Idl.isIdentifier_of_scanName isName
    rw [String.ofList_toList] at isIdentifier
    exact fun c member => Idl.toNat_lt_of_isNameChar (isIdentifier.isName c member)
  have hyphenates : Hyphenates name.toList (kebabCase name).toList :=
    spelled ▸ Text.hyphenates_kebab ascii fun c member => ne_of_mem_of_not_mem member unhyphenated
  refine ⟨hyphenates, fun text others => ?_, ?_⟩
  · exact String.toList_inj.mp (others.unique ascii hyphenates)
  · rw [← String.toList_inj, kebabCase, String.toList_ofList, spelled, Text.kebab_kebab ascii]

/-- A name with an underscore, an acronym, and a digit between small letters and capitals. -/
def decoratedName : String := "_HTMLVideo2DElement"

/-- Capitals in a row, digits and an underscore in one name. -/
theorem kebabCase_hyphenates_decorated :
    Idl.scanName decoratedName.toList = some (decoratedName.toList, []) ∧
      '-' ∉ decoratedName.toList ∧
      Hyphenates decoratedName.toList "_html-video2-d-element".toList ∧
      kebabCase "_html-video2-d-element" = "_html-video2-d-element" := by
  have isName : Idl.scanName decoratedName.toList = some (decoratedName.toList, []) := by
    decide +kernel
  have unhyphenated : '-' ∉ decoratedName.toList := by decide +kernel
  have same : kebabCase decoratedName = "_html-video2-d-element" := by decide +kernel
  obtain ⟨hyphenates, -, again⟩ := kebabCase_hyphenates decoratedName isName unhyphenated
  rw [same] at hyphenates again
  exact ⟨isName, unhyphenated, hyphenates, again⟩

end InterfaceAudit
