import InterfaceAudit.Proofs.Grammar.Derivation
import InterfaceAudit.Proofs.Idl.TypeLayout

/-!
The strings of types.
A type without comments and extended attributes is a layout of tokens, and its string is the
squeezed layout; it is the canonical spelling exactly when no two neighbouring tokens are a blemish.
-/

namespace InterfaceAudit.Idl

open Grammar
open Grammar.Expression (skipThen thenSkip firstOf present)

mutual

/-- Arguments stand between angle brackets with commas between them, alternatives in parentheses
with `or` between them, and a question mark directly behind the type it belongs to. -/
def TypeForm.canonical : TypeForm → String
  | .named name => name
  | .primitive words => " ".intercalate words
  | .generic name arguments => name ++ "<" ++ ", ".intercalate (canonicals arguments) ++ ">"
  | .union alternatives => "(" ++ " or ".intercalate (canonicals alternatives) ++ ")"
  | .nullable inner => inner.canonical ++ "?"

def canonicals : List TypeForm → List String
  | [] => []
  | form :: others => form.canonical :: canonicals others

end

/-- The canonical spellings of several types are those of each of them. -/
theorem canonicals_eq_map (forms : List TypeForm) :
    canonicals forms = forms.map TypeForm.canonical := by
  induction forms with
  | nil => rfl
  | cons form others inductionHypothesis => rw [canonicals, inductionHypothesis, List.map_cons]

/-! ### Texts without comments and extended attributes -/

structure Bare (text : List Char) : Prop where
  noSlash : '/' ∉ text
  noBracket : '[' ∉ text

/-- Both parts of a bare text are bare. -/
theorem Bare.of_append {first second : List Char} (bare : Bare (first ++ second)) :
    Bare first ∧ Bare second := by
  obtain ⟨noSlash, noBracket⟩ := bare
  rw [List.mem_append, not_or] at noSlash noBracket
  exact ⟨⟨noSlash.1, noBracket.1⟩, ⟨noSlash.2, noBracket.2⟩⟩

/-- Without comments a blank is white space. -/
theorem all_isWhiteSpace_of_afterBlank {gap rest : List Char} (noSlash : '/' ∉ gap)
    (found : afterBlank (gap ++ rest) = rest) : gap.all Text.isWhiteSpace = true := by
  induction gap with
  | nil => rfl
  | cons c gap inductionHypothesis =>
    rw [List.mem_cons, not_or] at noSlash
    obtain ⟨notSlash, othersPlain⟩ := noSlash
    have item := afterBlankItem_of_ne_slash (Ne.symm notSlash) (gap ++ rest)
    by_cases space : Text.isWhiteSpace c = true
    · rw [if_pos space] at item
      rw [List.cons_append, afterBlank_of_some item] at found
      rw [List.all_cons, space, inductionHypothesis othersPlain found]
      rfl
    · rw [if_neg space] at item
      rw [List.cons_append, afterBlank_of_none item, ← List.cons_append] at found
      have length := congrArg List.length found
      rw [List.length_append, List.length_cons] at length
      omega

/-! ### Layouts of types -/

/-- A text as it is and as its tokens are spelled canonically. -/
structure Laid (text canonical : List Char) (layout : TypeLayout) : Prop where
  source : layout.source = text
  canonical : layout.canonical = canonical
  sound : layout.Sound

theorem Laid.single (token : TypeToken) (sound : token.isSound = true) :
    Laid token.chars token.chars (.single token) :=
  ⟨TypeLayout.spelled_single token, TypeLayout.spelled_single token, .single sound⟩

/-- Two layouts with white space between them are laid out together. -/
theorem Laid.join {text canonical other otherCanonical gap : List Char}
    {layout otherLayout : TypeLayout} (laid : Laid text canonical layout)
    (otherLaid : Laid other otherCanonical otherLayout)
    (white : gap.all Text.isWhiteSpace = true) :
    Laid (text ++ (gap ++ other))
      (canonical ++ (canonicalSpace layout.last otherLayout.first ++ otherCanonical))
      (layout.join gap otherLayout) where
  source := by
    rw [TypeLayout.source, TypeLayout.spelled_join, ← laid.source, ← otherLaid.source]
    rfl
  canonical := by
    rw [TypeLayout.canonical, TypeLayout.spelled_join, ← laid.canonical, ← otherLaid.canonical]
    rfl
  sound := laid.sound.join otherLaid.sound white

/-- Equal texts are laid out by one layout. -/
theorem Laid.congr {text canonical other otherCanonical : List Char} {layout : TypeLayout}
    (laid : Laid text canonical layout) (sameText : text = other)
    (sameCanonical : canonical = otherCanonical) : Laid other otherCanonical layout :=
  sameText ▸ sameCanonical ▸ laid

/-- The layout of a type begins and ends as types do. -/
structure LaidType (text : List Char) (form : TypeForm) (layout : TypeLayout) : Prop extends
    Laid text form.canonical.toList layout where
  starts : layout.first.startsType = true
  ends : layout.last.endsType = true

/-- No mark is called for behind a space when it follows a type. -/
theorem canonicalSpace_of_endsType {before : TypeToken} (ends : before.endsType = true)
    (kind : Mark) : canonicalSpace before (.mark kind) = [] := by
  refine if_neg ?_
  rintro (rfl | rfl | isOr | ⟨-, isWord⟩)
  · contradiction
  · contradiction
  · contradiction
  · contradiction

/-- No space stands in front of a type behind any mark but a comma. -/
theorem canonicalSpace_of_startsType {kind : Mark} (notComma : kind ≠ .comma) {token : TypeToken}
    (starts : token.startsType = true) : canonicalSpace (.mark kind) token = [] := by
  refine if_neg ?_
  rintro (comma | isOr | rfl | ⟨isWord, -⟩)
  · exact notComma (TypeToken.mark.inj comma)
  · contradiction
  · contradiction
  · contradiction

/-- The words of a primitive type are laid out with single spaces between them. -/
theorem Words.laid {words : List (List Char)} {text : List Char} (isWords : Words words text) :
    ∃ layout, Laid text (List.intercalate [' '] words) layout ∧ layout.first.isWord = true ∧
      layout.last.isWord = true := by
  induction isWords with
  | @one word nonempty parts =>
    have laid := Laid.single (.word word) (TypeToken.isSound_word nonempty parts)
    have alone : List.intercalate [' '] [word] = word := List.append_nil _
    exact ⟨.single (.word word), alone.symm ▸ laid, rfl, rfl⟩
  | @cons word gap words text nonempty parts gapNonempty white others inductionHypothesis =>
    obtain ⟨layout, laid, first, last⟩ := inductionHypothesis
    refine ⟨(TypeLayout.single (.word word)).join gap layout, ?_, rfl,
      (congrArg TypeToken.isWord TypeLayout.last_join).trans last⟩
    have isSound := TypeToken.isSound_word nonempty parts
    have joined := (Laid.single (.word word) isSound).join laid white
    have space : canonicalSpace (TypeLayout.single (.word word)).last layout.first = [' '] :=
      if_pos (.inr (.inr (.inr ⟨rfl, first⟩)))
    obtain ⟨next, rest, rfl⟩ : ∃ next rest, words = next :: rest := by
      cases others with
      | one => exact ⟨_, _, rfl⟩
      | cons => exact ⟨_, _, rfl⟩
    rw [space] at joined
    rw [List.intercalate_cons_cons, List.append_assoc]
    exact joined

/-- A question mark may follow a type behind white space. -/
theorem LaidType.nullable {text gap : List Char} {form : TypeForm} {layout : TypeLayout}
    (laid : LaidType text form layout) (white : gap.all Text.isWhiteSpace = true) :
    LaidType (text ++ (gap ++ ['?'])) (.nullable form)
      (layout.join gap (.single (.mark .question))) where
  toLaid := by
    have joined := laid.toLaid.join (Laid.single (.mark .question) rfl) white
    have space : canonicalSpace layout.last (TypeLayout.single (.mark .question)).first = [] :=
      canonicalSpace_of_endsType laid.ends .question
    rw [space] at joined
    rw [TypeForm.canonical, String.toList_append]
    exact joined
  starts := laid.starts
  ends := congrArg TypeToken.endsType TypeLayout.last_join

/-! ### What tokens and rules stand for -/

/-- A type that is not nullable is its body, and the mark of a nullable type stands somewhere behind
its body. -/
inductive SpellsType : TypeUse → List Char → Prop
  | body {text : List Char} {form : TypeForm} {layout : TypeLayout}
    (laid : LaidType text form layout) (solid : layout.last ≠ .mark .question)
    (notNullable : ∀ inner, form ≠ .nullable inner) : SpellsType ⟨form, squeezed text⟩ text
  | nullable {text gap : List Char} {form : TypeForm} {layout : TypeLayout}
    (laid : LaidType text form layout) (solid : layout.last ≠ .mark .question)
    (white : gap.all Text.isWhiteSpace = true) :
    SpellsType ⟨.nullable form, squeezed text ++ "?"⟩ (text ++ (gap ++ ['?']))

/-- A spelled type has a layout, whether or not it is nullable. -/
theorem SpellsType.laid {use : TypeUse} {text : List Char} (spells : SpellsType use text) :
    ∃ layout, LaidType text use.form layout := by
  cases spells with
  | body laid solid => exact ⟨_, laid⟩
  | nullable laid solid white => exact ⟨_, laid.nullable white⟩

def typeMeaning : Meaning Token Rule where
  token
    | .blank, text => '/' ∉ text → text.all Text.isWhiteSpace = true
    | .symbol mark, text => text = [mark]
    | .keyword word, text => text = word.spelling
    | .name, text => text ≠ [] ∧ text.all isTokenPart = true
    | .primitive, text => ∃ words, Words words text
    | _, _ => True
  rule
    | .type, use, text => Bare text → SpellsType use text
    | .extAttrs, _, text => '[' ∈ text

/-- Every token takes what it stands for. -/
theorem scan_means {kind : Token} {text taken rest : List Char}
    (found : kind.scan text = some (taken, rest)) :
    text = taken ++ rest ∧ typeMeaning.token kind taken := by
  have split := (Token.scan_split found).1
  refine ⟨split.symm, ?_⟩
  cases kind with
  | blank =>
    obtain ⟨-, rest_eq⟩ := Prod.mk.inj (Option.some.inj found)
    intro noSlash
    rw [← split] at rest_eq
    exact all_isWhiteSpace_of_afterBlank noSlash rest_eq
  | symbol mark =>
    have marked := (scan_symbol found).symm.trans split.symm
    exact (List.append_cancel_right (marked : [mark] ++ rest = taken ++ rest)).symm
  | keyword word =>
    simp only [Token.scan, scanKeyword, scanSpelling, Scan.wholeWord] at found
    split at found <;> try contradiction
    next spelled =>
      split at spelled <;> try contradiction
      split at found <;> try contradiction
      obtain ⟨rfl, -⟩ := Prod.mk.inj (Option.some.inj spelled)
      exact (Prod.mk.inj (Option.some.inj found)).1.symm
  | name =>
    have inert := (scanName_inert fun _ => id).splits found
    exact ⟨inert.taken_ne_nil, List.all_eq_true.mpr inert.inert⟩
  | primitive => exact scansWords_primitive found
  | ellipsis | number | quoted => trivial

section Derivations

variable {First Second Value : Type} {value : Value} {text : List Char}

/-- The text of a phrase that is skipped stands in front. -/
theorem derives_skipThen {first : Phrase First} {second : Phrase Value} :
    (skipThen first second).Derives typeMeaning value text ↔
      ∃ front back, text = front ++ back ∧ (∃ other, first.Derives typeMeaning other front) ∧
        second.Derives typeMeaning value back := by
  constructor
  · rintro ⟨⟨other, _⟩, rfl, front, back, split, firstDerives, secondDerives⟩
    exact ⟨front, back, split, ⟨other, firstDerives⟩, secondDerives⟩
  · rintro ⟨front, back, split, ⟨other, firstDerives⟩, secondDerives⟩
    exact ⟨(other, value), rfl, front, back, split, firstDerives, secondDerives⟩

/-- The text of a phrase that is skipped stands behind. -/
theorem derives_thenSkip {first : Phrase Value} {second : Phrase Second} :
    (thenSkip first second).Derives typeMeaning value text ↔
      ∃ front back, text = front ++ back ∧ first.Derives typeMeaning value front ∧
        ∃ other, second.Derives typeMeaning other back := by
  constructor
  · rintro ⟨⟨_, other⟩, rfl, front, back, split, firstDerives, secondDerives⟩
    exact ⟨front, back, split, firstDerives, other, secondDerives⟩
  · rintro ⟨front, back, split, firstDerives, other, secondDerives⟩
    exact ⟨(value, other), rfl, front, back, split, firstDerives, secondDerives⟩

/-- A bare phrase is followed by white space. -/
theorem derives_spaced {phrase : Phrase Value} (bare : Bare text)
    (derives : (spaced phrase).Derives typeMeaning value text) :
    ∃ front gap, text = front ++ gap ∧ Bare front ∧ gap.all Text.isWhiteSpace = true ∧
      phrase.Derives typeMeaning value front := by
  obtain ⟨front, gap, rfl, found, other, -, white⟩ := derives_thenSkip.mp derives
  exact ⟨front, gap, rfl, bare.of_append.1, white bare.of_append.2.noSlash, found⟩

end Derivations

/-! ### Bodies of types -/

/-- A separator between two types is spelled canonically in one way. -/
def Separates (separator : TypeToken) (spelling : List Char) : Prop :=
  ∀ before after : TypeToken, before.endsType = true → after.startsType = true →
    canonicalSpace before separator ++ (separator.chars ++ canonicalSpace separator after) =
      spelling

/-- Canonical arguments are separated by a comma and a space. -/
theorem separates_comma : Separates (.mark .comma) ", ".toList := by
  intro before after ends _
  rw [canonicalSpace_of_endsType ends]
  rfl

/-- Canonical alternatives are separated by a word with a space on both sides. -/
theorem separates_or : Separates .or " or ".toList := by
  intro before after _ _
  have space : canonicalSpace before .or = [' '] := if_pos (.inr (.inr (.inl rfl)))
  rw [space]
  rfl

/-- A separator and the type behind it. -/
def LaidBehind (separator : TypeToken) (use : TypeUse) (text : List Char) : Prop :=
  ∃ gap type space layout, text = separator.chars ++ (gap ++ (type ++ space)) ∧
    gap.all Text.isWhiteSpace = true ∧ space.all Text.isWhiteSpace = true ∧
    LaidType type use.form layout

/-- Types with separators between them, and the white space that follows the last one. -/
theorem laid_behind {separator : TypeToken} {spelling : List Char}
    (sound : separator.isSound = true) (separates : Separates separator spelling)
    {uses : List TypeUse} {parts : List (List Char)}
    (items : List.Forall₂ (LaidBehind separator) uses parts) {text canonical gap : List Char}
    {layout : TypeLayout} (laid : Laid text canonical layout) (ends : layout.last.endsType = true)
    (white : gap.all Text.isWhiteSpace = true) :
    ∃ whole space wholeLayout, text ++ (gap ++ parts.flatten) = whole ++ space ∧
      space.all Text.isWhiteSpace = true ∧
      Laid whole
        (canonical ++ (uses.map fun use => spelling ++ use.form.canonical.toList).flatten)
        wholeLayout ∧
      wholeLayout.first = layout.first ∧ wholeLayout.last.endsType = true := by
  induction items generalizing text canonical gap layout with
  | nil => exact ⟨text, gap, layout, by simp, white, by simpa using laid, rfl, ends⟩
  | @cons use part uses parts item others inductionHypothesis =>
    obtain ⟨inner, type, space, typeLayout, rfl, innerWhite, spaceWhite, typeLaid⟩ := item
    have separated := (laid.join (.single separator sound) white).join typeLaid.toLaid innerWhite
    have lastEnds : ((layout.join gap (.single separator)).join inner typeLayout).last.endsType =
        true := by
      rw [TypeLayout.last_join]
      exact typeLaid.ends
    obtain ⟨whole, last, wholeLayout, same, lastWhite, wholeLaid, first, wholeEnds⟩ :=
      inductionHypothesis separated lastEnds spaceWhite
    refine ⟨whole, last, wholeLayout, ?_, lastWhite, ?_, first, wholeEnds⟩
    · rw [← same]
      simp only [List.flatten_cons, List.append_assoc]
    · have spelled := separates layout.last typeLayout.first ends typeLaid.starts
      have canonical_eq : canonical ++ ((use :: uses).map fun use =>
            spelling ++ use.form.canonical.toList).flatten =
          canonical ++ (canonicalSpace layout.last separator ++ separator.chars) ++
            (canonicalSpace separator typeLayout.first ++ use.form.canonical.toList) ++
              (uses.map fun use => spelling ++ use.form.canonical.toList).flatten := by
        rw [List.map_cons, List.flatten_cons, ← spelled]
        simp only [List.append_assoc]
      rw [canonical_eq]
      rw [TypeLayout.last_join] at wholeLaid
      exact wholeLaid

/-- Items behind the first one have the separator in front. -/
theorem intercalate_eq (separator first : List Char) (others : List (List Char)) :
    List.intercalate separator (first :: others) =
      first ++ (others.map fun other => separator ++ other).flatten := by
  induction others generalizing first with
  | nil => simp [List.intercalate]
  | cons other others inductionHypothesis =>
    rw [List.intercalate_cons_cons, inductionHypothesis, List.map_cons, List.flatten_cons]
    simp only [List.append_assoc]

/-- The canonical spelling of a list of types. -/
theorem intercalate_canonical (separator : String) (first : TypeUse) (others : List TypeUse) :
    (separator.intercalate (canonicals ((first :: others).map TypeUse.form))).toList =
      first.form.canonical.toList ++
        (others.map fun use => separator.toList ++ use.form.canonical.toList).flatten := by
  rw [String.toList_intercalate, canonicals_eq_map, List.map_cons, List.map_cons, List.map_cons,
    intercalate_eq, List.map_map, List.map_map, List.map_map]
  rfl

/-- The first type of a list and the white space behind it. -/
theorem laid_of_spaced_type {use : TypeUse} {text : List Char} (bare : Bare text)
    (derives : (spaced Idl.type).Derives typeMeaning use text) :
    ∃ type gap layout, text = type ++ gap ∧ gap.all Text.isWhiteSpace = true ∧
      LaidType type use.form layout := by
  obtain ⟨type, gap, rfl, typeBare, white, spells⟩ := derives_spaced bare derives
  obtain ⟨layout, laid⟩ := (spells typeBare : SpellsType use type).laid
  exact ⟨type, gap, layout, rfl, white, laid⟩

/-- A separator of types with the type behind it. -/
theorem laidBehind_of_derives (separator : TypeToken) (phrase : Phrase (List Char))
    (isSeparator : ∀ {value text}, phrase.Derives typeMeaning value text → text = separator.chars)
    {use : TypeUse} {text : List Char} (bare : Bare text)
    (derives : (skipThen (spaced phrase) (spaced Idl.type)).Derives typeMeaning use text) :
    LaidBehind separator use text := by
  obtain ⟨front, back, rfl, ⟨_, separatorDerives⟩, typeDerives⟩ := derives_skipThen.mp derives
  obtain ⟨frontBare, backBare⟩ := bare.of_append
  obtain ⟨marked, gap, rfl, -, white, marks⟩ := derives_spaced frontBare separatorDerives
  obtain ⟨type, space, layout, rfl, spaceWhite, laid⟩ := laid_of_spaced_type backBare typeDerives
  refine ⟨gap, type, space, layout, ?_, white, spaceWhite, laid⟩
  rw [isSeparator marks, List.append_assoc]

/-- Each type behind a separator has a layout of its own. -/
theorem forall₂_laidBehind (separator : TypeToken) (phrase : Phrase (List Char))
    (isSeparator : ∀ {value text}, phrase.Derives typeMeaning value text → text = separator.chars)
    {uses : List TypeUse} {parts : List (List Char)} (bare : Bare parts.flatten)
    (derives : List.Forall₂ ((skipThen (spaced phrase) (spaced Idl.type)).Derives typeMeaning)
      uses parts) : List.Forall₂ (LaidBehind separator) uses parts := by
  induction derives with
  | nil => exact .nil
  | cons item others inductionHypothesis =>
    obtain ⟨partBare, othersBare⟩ := bare.of_append
    exact .cons (laidBehind_of_derives separator phrase isSeparator partBare item)
      (inductionHypothesis othersBare)

/-- A list of types in brackets behind whatever stands in front of it. -/
theorem laid_list {separator : TypeToken} (spelling : String)
    (sound : separator.isSound = true) (separates : Separates separator spelling.toList)
    {first : TypeUse} {others : List TypeUse} {parts : List (List Char)}
    (items : List.Forall₂ (LaidBehind separator) others parts)
    (closing : Mark) (closes : closing = .greater ∨ closing = .closeParenthesis)
    {type gap : List Char} {typeLayout : TypeLayout} (laid : LaidType type first.form typeLayout)
    (white : gap.all Text.isWhiteSpace = true) :
    ∃ layout, Laid (type ++ (gap ++ (parts.flatten ++ [closing.char])))
        ((spelling.intercalate (canonicals ((first :: others).map TypeUse.form))).toList ++
          [closing.char]) layout ∧
      layout.first.startsType = true ∧ layout.last = .mark closing := by
  obtain ⟨whole, space, layout, same, spaceWhite, wholeLaid, starts, ends⟩ :=
    laid_behind sound separates items laid.toLaid laid.ends white
  have closingSound : (TypeToken.mark closing).isSound = true := by
    rcases closes with rfl | rfl <;> rfl
  have joined := wholeLaid.join (.single (.mark closing) closingSound) spaceWhite
  have noSpace :
      canonicalSpace layout.last (TypeLayout.single (.mark closing)).first = [] :=
    canonicalSpace_of_endsType ends closing
  have text_eq : type ++ (gap ++ (parts.flatten ++ [closing.char])) =
      whole ++ (space ++ [closing.char]) := by
    rw [← List.append_assoc whole, ← same]
    simp only [List.append_assoc]
  refine ⟨layout.join space (.single (.mark closing)), ?_, ?_, TypeLayout.last_join⟩
  · rw [text_eq, intercalate_canonical]
    rw [noSpace] at joined
    exact joined
  · rw [TypeLayout.first_join, starts]
    exact laid.starts

/-- The layout of a body ends with a word or a closing bracket. -/
structure LaidBody (text : List Char) (form : TypeForm) (layout : TypeLayout) : Prop extends
    LaidType text form layout where
  solid : layout.last ≠ .mark .question
  notNullable : ∀ inner, form ≠ .nullable inner

section Bodies

variable {form : TypeForm} {text : List Char}

/-- A name is laid out as one word. -/
theorem laid_namedType (derives : namedType.Derives typeMeaning form text) :
    ∃ layout, LaidBody text form layout := by
  obtain ⟨_, rfl, word, rfl, rfl, nonempty, parts⟩ := derives
  have laid := Laid.single (.word word) (TypeToken.isSound_word nonempty parts)
  refine ⟨.single (.word word), ⟨⟨?_, rfl, rfl⟩, nofun, nofun⟩⟩
  rw [TypeForm.canonical, String.toList_ofList]
  exact laid

/-- A primitive type is laid out word by word. -/
theorem laid_primitiveType (derives : primitiveType.Derives typeMeaning form text) :
    ∃ layout, LaidBody text form layout := by
  obtain ⟨_, rfl, rfl, words, isWords⟩ := derives
  obtain ⟨layout, laid, first, last⟩ := isWords.laid
  have starts : layout.first.startsType = true := by
    cases same : layout.first with
    | word => rfl
    | or | mark =>
      rw [same] at first
      contradiction
  have ends : layout.last.endsType = true ∧ layout.last ≠ .mark .question := by
    cases same : layout.last with
    | word => exact ⟨rfl, nofun⟩
    | or | mark =>
      rw [same] at last
      contradiction
  refine ⟨layout, ⟨⟨?_, starts, ends.1⟩, ends.2, nofun⟩⟩
  have strings : (" ".intercalate (words.map String.ofList)).toList =
      List.intercalate [' '] words := by
    rw [String.toList_intercalate, List.map_map]
    congr 1
    exact (List.map_congr_left fun _ _ => String.toList_ofList).trans (List.map_id words)
  rw [TypeForm.canonical, isWords.wordsOf_eq, strings]
  exact laid

/-- A generic type is laid out as its name, its arguments and the marks around them. -/
theorem laid_genericType (bare : Bare text)
    (derives : genericType.Derives typeMeaning form text) :
    ∃ layout, LaidBody text form layout := by
  obtain ⟨⟨name, first, others⟩, rfl, head, list, rfl, headDerives, front, back, rfl, firstDerives,
    listDerives⟩ := derives
  obtain ⟨headBare, listBare⟩ := bare.of_append
  obtain ⟨frontBare, backBare⟩ := listBare.of_append
  obtain ⟨nameText, opening, rfl, nameDerives, _, openingDerives⟩ :=
    derives_thenSkip.mp headDerives
  obtain ⟨nameBare, openingBare⟩ := headBare.of_append
  obtain ⟨_, gap, rfl, -, white, word, rfl, rfl, nonempty, parts⟩ :=
    derives_spaced nameBare nameDerives
  obtain ⟨less, space, rfl, -, spaceWhite, -, rfl⟩ := derives_spaced openingBare openingDerives
  obtain ⟨type, last, typeLayout, rfl, lastWhite, typeLaid⟩ :=
    laid_of_spaced_type frontBare firstDerives
  obtain ⟨rest, closing, rfl, ⟨items, itemsDerive, rfl⟩, _, -, rfl⟩ :=
    derives_thenSkip.mp listDerives
  have behind : List.Forall₂ (LaidBehind (.mark .comma)) others items :=
    forall₂_laidBehind (.mark .comma) (symbol ',') And.right backBare.of_append.1 itemsDerive
  obtain ⟨listLayout, listLaid, starts, ends⟩ :=
    laid_list ", " rfl separates_comma behind .greater (.inl rfl) typeLaid lastWhite
  have opened := (Laid.single (.word word) (TypeToken.isSound_word nonempty parts)).join
    (Laid.single (.mark .less) rfl) white
  have joined := opened.join listLaid spaceWhite
  let opening : TypeLayout := (TypeLayout.single (.word word)).join gap (.single (.mark .less))
  have behindName : canonicalSpace (TypeLayout.single (.word word)).last
      (TypeLayout.single (.mark .less)).first = [] := canonicalSpace_of_endsType rfl .less
  have behindLess : canonicalSpace opening.last listLayout.first = [] := by
    rw [TypeLayout.last_join]
    exact canonicalSpace_of_startsType (by decide : Mark.less ≠ .comma) starts
  have last_eq : (opening.join space listLayout).last = .mark .greater := by
    rw [TypeLayout.last_join, ends]
  refine ⟨opening.join space listLayout, ⟨⟨joined.congr ?_ ?_, rfl, ?_⟩, ?_, nofun⟩⟩
  · simp only [TypeToken.chars, Mark.char, List.append_assoc]
  · rw [behindName, behindLess, TypeForm.canonical, String.toList_append, String.toList_append,
      String.toList_append, String.toList_ofList]
    simp only [List.append_assoc]
    rfl
  · rw [last_eq]
    rfl
  · rw [last_eq]
    nofun

/-- A union is laid out as its alternatives in parentheses. -/
theorem laid_unionType (bare : Bare text)
    (derives : unionType.Derives typeMeaning form text) : ∃ layout, LaidBody text form layout := by
  obtain ⟨⟨first, others⟩, rfl, contentDerives⟩ := derives
  obtain ⟨head, content, rfl, ⟨_, headDerives⟩, ⟨_, second, rest⟩, same, front, behind, rfl,
    firstDerives, middle, back, rfl, secondDerives, restDerives⟩ :=
    derives_skipThen.mp contentDerives
  obtain ⟨rfl, rfl⟩ := Prod.mk.inj same
  obtain ⟨headBare, contentBare⟩ := bare.of_append
  obtain ⟨frontBare, behindBare⟩ := contentBare.of_append
  obtain ⟨middleBare, backBare⟩ := behindBare.of_append
  obtain ⟨_, space, rfl, -, spaceWhite, -, rfl⟩ := derives_spaced headBare headDerives
  obtain ⟨type, last, typeLayout, rfl, lastWhite, typeLaid⟩ :=
    laid_of_spaced_type frontBare firstDerives
  obtain ⟨items, closing, rfl, ⟨parts, itemsDerive, rfl⟩, _, -, rfl⟩ :=
    derives_thenSkip.mp restDerives
  have laidItems : List.Forall₂ (LaidBehind .or) (second :: rest) (middle :: parts) :=
    .cons (laidBehind_of_derives .or (keyword .or) And.right middleBare secondDerives)
      (forall₂_laidBehind .or (keyword .or) And.right backBare.of_append.1 itemsDerive)
  obtain ⟨listLayout, listLaid, starts, ends⟩ := laid_list " or " rfl separates_or laidItems
    .closeParenthesis (.inr rfl) typeLaid lastWhite
  have joined := (Laid.single (.mark .openParenthesis) rfl).join listLaid spaceWhite
  have behindOpening : canonicalSpace (TypeLayout.single (.mark .openParenthesis)).last
      listLayout.first = [] :=
    canonicalSpace_of_startsType (by decide : Mark.openParenthesis ≠ .comma) starts
  have last_eq : ((TypeLayout.single (.mark .openParenthesis)).join space listLayout).last =
      .mark .closeParenthesis := by
    rw [TypeLayout.last_join, ends]
  refine ⟨(TypeLayout.single (.mark .openParenthesis)).join space listLayout,
    ⟨⟨joined.congr ?_ ?_, rfl, ?_⟩, ?_, nofun⟩⟩
  · simp only [TypeToken.chars, Mark.char, List.flatten_cons, List.append_assoc]
  · rw [behindOpening, TypeForm.canonical, String.toList_append, String.toList_append]
    simp only [List.append_assoc]
    rfl
  · rw [last_eq]
    rfl
  · rw [last_eq]
    nofun

/-- The body of a type has a layout that does not end in a question mark. -/
theorem laid_typeBody (bare : Bare text) (derives : typeBody.Derives typeMeaning form text) :
    ∃ layout, LaidBody text form layout := by
  rcases derives with union | generic | primitive | named
  · exact laid_unionType bare union
  · exact laid_genericType bare generic
  · exact laid_primitiveType primitive
  · exact laid_namedType named

end Bodies

/-! ### Types as they are read -/

/-- A section of attributes has a bracket in it, so a bare text has none. -/
theorem bracket_mem_of_extAttrSection {value : List String} {text : List Char}
    (derives : extAttrSection.Derives typeMeaning value text) : '[' ∈ text := by
  obtain ⟨front, back, rfl, ⟨_, frontDerives⟩, -⟩ := derives_skipThen.mp derives
  obtain ⟨opening, gap, rfl, ⟨-, rfl⟩, -⟩ := derives_thenSkip.mp frontDerives
  exact List.mem_append_left _ (List.mem_append_left _ (List.mem_singleton_self '['))

/-- A bare type is its body and perhaps a question mark. -/
theorem spellsType_of_typeRule {use : TypeUse} {text : List Char} (bare : Bare text)
    (derives : typeRule.Derives typeMeaning use text) : SpellsType use text := by
  obtain ⟨⟨_, ⟨source, form⟩, mark⟩, rfl, front, behind, rfl, sectionDerives, body, back, rfl,
    ⟨rfl, bodyDerives⟩, marked, rfl, markDerives⟩ := derives
  obtain ⟨frontBare, behindBare⟩ := bare.of_append
  obtain ⟨bodyBare, backBare⟩ := behindBare.of_append
  rcases sectionDerives with ⟨-, rfl⟩ | ⟨_, -, sectionDerives⟩
  · obtain ⟨layout, laid⟩ := laid_typeBody bodyBare bodyDerives
    rcases markDerives with ⟨rfl, rfl⟩ | ⟨_, rfl, markDerives⟩
    · rw [List.nil_append, List.append_nil]
      exact .body laid.toLaidType laid.solid laid.notNullable
    · obtain ⟨gap, question, rfl, ⟨_, -, white⟩, -, rfl⟩ := derives_skipThen.mp markDerives
      exact .nullable laid.toLaidType laid.solid (white backBare.of_append.1.noSlash)
  · obtain ⟨bracketed, gap, rfl, bracketedDerives, -⟩ := derives_thenSkip.mp sectionDerives
    exact absurd (bracket_mem_of_extAttrSection bracketedDerives)
      frontBare.of_append.1.noBracket

/-- Both rules take what they stand for. -/
theorem body_means {Value : Type} (rule : Rule Value) {value : Value} {text : List Char}
    (derives : (grammar.body rule).Derives typeMeaning value text) :
    typeMeaning.rule rule value text := by
  cases rule with
  | type => exact fun bare => spellsType_of_typeRule bare derives
  | extAttrs => exact bracket_mem_of_extAttrSection derives

/-- A type without comments and extended attributes is read from a layout of its tokens. -/
theorem spellsType_of_read {text rest : List Char} {use : TypeUse}
    (found : grammar.read Idl.type text = some (use, rest)) (bare : Bare (consumed text rest)) :
    SpellsType use (consumed text rest) := by
  obtain ⟨taken, rfl, spells⟩ := read_takes typeMeaning scan_means body_means Idl.type found
  rw [consumed_of_append] at bare ⊢
  exact spells bare

/-! ### Strings of types -/

/-- Without a question mark at its end a layout is left as it is. -/
theorem TypeLayout.pulled_of_solid {layout : TypeLayout} (solid : layout.last ≠ .mark .question) :
    layout.pulled = layout := by
  unfold pulled
  split
  · next gap ends =>
    obtain ⟨front, same⟩ := List.getLast?_eq_some_iff.mp ends
    rw [last, same, lastBehind_append] at solid
    exact absurd rfl solid
  · rfl

/-- The question mark at the end is pulled to the token in front of it. -/
theorem TypeLayout.pulled_join (layout : TypeLayout) (gap : List Char) :
    (layout.join gap (.single (.mark .question))).pulled =
      layout.join [] (.single (.mark .question)) := by
  simp [pulled, join, single]

/-- No type ends in a comma. -/
theorem LaidType.last_ne_comma {text : List Char} {form : TypeForm} {layout : TypeLayout}
    (laid : LaidType text form layout) : layout.last ≠ .mark .comma := by
  intro comma
  have ends := laid.ends
  rw [comma] at ends
  contradiction

/-- The squeezed body of a type is what is shown of its layout. -/
theorem LaidType.squeezed_eq {text : List Char} {form : TypeForm} {layout : TypeLayout}
    (laid : LaidType text form layout) : squeezed text = String.ofList layout.shown := by
  rw [squeezed, ← laid.source, TypeLayout.squeeze_source laid.sound laid.last_ne_comma]

theorem LaidType.toList_squeezed {text : List Char} {form : TypeForm} {layout : TypeLayout}
    (laid : LaidType text form layout) : (squeezed text).toList = layout.shown := by
  rw [laid.squeezed_eq, String.toList_ofList]

/-- The string of a type without comments and extended attributes is what is shown of a layout of
its tokens, with the question mark of the whole type put behind its body. It is the canonical
spelling exactly when no two neighbouring tokens are a blemish: `or` beside a bracket, a question
mark behind white space, or `or` with no white space beside it. -/
theorem read_type_shown {text rest : List Char} {use : TypeUse}
    (found : grammar.read Idl.type text = some (use, rest))
    (noComment : '/' ∉ consumed text rest) (noExtAttrs : '[' ∉ consumed text rest) :
    ∃ layout : TypeLayout, layout.Sound ∧ layout.source = consumed text rest ∧
      layout.canonical = use.form.canonical.toList ∧
      use.text.toList = layout.pulled.shown ∧
      (use.text = use.form.canonical ↔ layout.pulled.Neat) := by
  have string_iff {text : List Char} {layout : TypeLayout} (laid : LaidType text use.form layout)
      (shown : use.text.toList = layout.shown) : use.text = use.form.canonical ↔ layout.Neat := by
    rw [← TypeLayout.shown_eq_canonical_iff laid.sound, ← shown, laid.canonical, String.toList_inj]
  have spells := spellsType_of_read found ⟨noComment, noExtAttrs⟩
  generalize consumed text rest = taken at spells
  cases spells with
  | @body _ form layout laid solid =>
    refine ⟨layout, laid.sound, laid.source, laid.canonical, ?_⟩
    rw [TypeLayout.pulled_of_solid solid]
    exact ⟨laid.toList_squeezed, string_iff laid laid.toList_squeezed⟩
  | @nullable body gap form layout laid solid white =>
    have whole := laid.nullable white
    have noGap : ([] : List Char).all Text.isWhiteSpace = true := rfl
    have shown : (squeezed body ++ "?").toList =
        (layout.join [] (.single (.mark .question))).shown := by
      rw [TypeLayout.shown, TypeLayout.spelled_join, shownSpace_nil laid.last_ne_comma,
        String.toList_append, laid.toList_squeezed]
      rfl
    refine ⟨_, whole.sound, whole.source, whole.canonical, ?_⟩
    rw [TypeLayout.pulled_join]
    exact ⟨shown, string_iff (laid.nullable noGap) shown⟩

/-- A bracket takes the space in front of the next alternative. -/
theorem read_type_shown_sequence :
    ∃ use, grammar.read Idl.type "(sequence<long> or A)".toList = some (use, []) ∧
      use.text = "(sequence<long>or A)" ∧ use.form.canonical = "(sequence<long> or A)" ∧
      ∃ layout : TypeLayout, layout.Sound ∧ layout.source = "(sequence<long> or A)".toList ∧
        layout.canonical = use.form.canonical.toList ∧
        use.text.toList = layout.pulled.shown ∧
        (use.text = use.form.canonical ↔ layout.pulled.Neat) := by
  have reading : (grammar.read Idl.type "(sequence<long> or A)".toList).map
      (fun reading => (reading.1.text, reading.1.form.canonical, reading.2)) =
        some ("(sequence<long>or A)", "(sequence<long> or A)", []) := by
    decide +kernel
  obtain ⟨⟨use, rest⟩, found, same⟩ := Option.map_eq_some_iff.mp reading
  obtain ⟨text, canonical, rfl⟩ : use.text = _ ∧ use.form.canonical = _ ∧ rest = _ := by
    simpa using same
  exact ⟨use, found, text, canonical,
    read_type_shown found (by decide +kernel) (by decide +kernel)⟩

end InterfaceAudit.Idl
