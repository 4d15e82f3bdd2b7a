import InterfaceAudit.Proofs.Idl.Compaction
import InterfaceAudit.Proofs.Idl.TypeText

/-!
Strings of types are stable: the string of a type is read as the same type, with the same string.
A type and its string have one compact text, and both are read in lockstep with it.
-/

namespace InterfaceAudit.Idl

open Grammar
open Text (isWhiteSpace squeeze)

/-! ### Layouts with their shown spaces -/

/-- Words and `or` need a space between each other. -/
def TypeToken.isWordy : TypeToken → Bool
  | .word _ | .or => true
  | .mark _ => false

/-- What a compact text keeps of white space. -/
def compactSpace (before : TypeToken) (gap : List Char) (token : TypeToken) : List Char :=
  if before.isWordy ∧ token.isWordy ∧ gap ≠ [] then [' '] else []

/-- Between two words a space is shown when there is white space in the source. -/
theorem compactSpace_shownSpace (before : TypeToken) (gap : List Char) (token : TypeToken) :
    compactSpace before (shownSpace before gap token) token = compactSpace before gap token := by
  by_cases wordy : before.isWordy = true ∧ token.isWordy = true
  · have plain {token : TypeToken} (wordy : token.isWordy = true) :
        token.isPlain = true ∧ token ≠ .mark .comma := by
      cases token with
      | word | or => exact ⟨rfl, nofun⟩
      | mark => contradiction
    by_cases empty : gap = []
    · rw [empty, shownSpace_nil (plain wordy.1).2]
    · have shown : shownSpace before gap token = [' '] :=
        if_pos (.inr ⟨(plain wordy.1).1, (plain wordy.2).1, empty⟩)
      rw [shown, compactSpace, compactSpace, if_pos ⟨wordy.1, wordy.2, List.cons_ne_nil _ _⟩,
        if_pos ⟨wordy.1, wordy.2, empty⟩]
  · rw [compactSpace, compactSpace, if_neg fun all => wordy ⟨all.1, all.2.1⟩,
      if_neg fun all => wordy ⟨all.1, all.2.1⟩]

def shownBehind : TypeToken → List (List Char × TypeToken) → List (List Char × TypeToken)
  | _, [] => []
  | before, (gap, token) :: others =>
    (shownSpace before gap token, token) :: shownBehind token others

/-- Spelling a shown layout chooses each space from the one that is shown. -/
theorem spelledBehind_shownBehind (space : TypeToken → List Char → TypeToken → List Char)
    (before : TypeToken) (others : List (List Char × TypeToken)) :
    spelledBehind space before (shownBehind before others) =
      spelledBehind (fun before gap token => space before (shownSpace before gap token) token)
        before others := by
  induction others generalizing before with
  | nil => rfl
  | cons pair others inductionHypothesis =>
    rw [shownBehind, spelledBehind, spelledBehind, inductionHypothesis]

/-- Showing the spaces changes no token. -/
theorem lastBehind_shownBehind (before : TypeToken) (others : List (List Char × TypeToken)) :
    lastBehind before (shownBehind before others) = lastBehind before others := by
  induction others generalizing before with
  | nil => rfl
  | cons pair others inductionHypothesis => exact inductionHypothesis pair.2

/-- The shown spaces are white space. -/
theorem sound_shownBehind {before : TypeToken} {others : List (List Char × TypeToken)}
    (sound : ∀ space ∈ others, space.1.all isWhiteSpace = true ∧ space.2.isSound = true) :
    ∀ space ∈ shownBehind before others,
      space.1.all isWhiteSpace = true ∧ space.2.isSound = true := by
  induction others generalizing before with
  | nil => exact nofun
  | cons pair others inductionHypothesis =>
    obtain ⟨head, tail⟩ := List.forall_mem_cons.mp sound
    refine List.forall_mem_cons.mpr ⟨⟨?_, head.2⟩, inductionHypothesis tail⟩
    rcases shownSpace_cases before pair.1 pair.2 with same | same <;> rw [same] <;> rfl

namespace TypeLayout

/-- The layout of the string of a type. -/
def rendered (layout : TypeLayout) : TypeLayout :=
  ⟨layout.first, shownBehind layout.first layout.others⟩

variable {layout : TypeLayout}

/-- The source of the rendered layout is what the layout shows. -/
theorem source_rendered : layout.rendered.source = layout.shown :=
  congrArg _ (spelledBehind_shownBehind _ _ _)

theorem shown_rendered : layout.rendered.shown = layout.shown := by
  simp only [shown, spelled, rendered, spelledBehind_shownBehind, shownSpace_shownSpace]

theorem last_rendered : layout.rendered.last = layout.last := lastBehind_shownBehind _ _

theorem Sound.rendered (sound : layout.Sound) : layout.rendered.Sound :=
  ⟨sound.first, sound_shownBehind sound.others⟩

/-- Squeezing the string of a type once more changes nothing. -/
theorem squeeze_shown (sound : layout.Sound) (ends : layout.last ≠ .mark .comma) :
    squeeze layout.shown = layout.shown := by
  rw [← last_rendered] at ends
  have squeezed := squeeze_source sound.rendered ends
  rw [source_rendered, shown_rendered] at squeezed
  exact squeezed

end TypeLayout

/-! ### Compact layouts -/

/-- No token has white space in it. -/
theorem TypeToken.chars_solid {token : TypeToken} (sound : token.isSound = true) :
    ∀ c ∈ token.chars, isWhiteSpace c = false := by
  intro c member
  cases token with
  | word chars =>
    rw [isSound, Bool.and_eq_true, List.all_eq_true] at sound
    exact isWhiteSpace_false_of_isTokenPart (sound.2 c member)
  | or =>
    have solid : Keyword.or.spelling.all (fun c => !isWhiteSpace c) = true := by decide
    simpa using List.all_eq_true.mp solid c member
  | mark kind =>
    rw [chars, List.mem_singleton] at member
    subst member
    cases kind <;> rfl

/-- A token stands in the compact text as it is. -/
theorem compact_token {token : TypeToken} (sound : token.isSound = true) (behindWord : Bool)
    (rest : List Char) :
    compact behindWord (token.chars ++ rest) = token.chars ++ compact token.isWordy rest := by
  cases token with
  | word chars =>
    rw [TypeToken.isSound, Bool.and_eq_true, Bool.not_eq_true', List.isEmpty_eq_false_iff] at sound
    exact compact_word behindWord sound.1 sound.2 rest
  | or => exact compact_word behindWord (by decide) (by decide) rest
  | mark kind =>
    cases kind <;> first | contradiction | exact compact_solid behindWord rfl rest

/-- White space between two tokens. -/
theorem compact_gap {before token : TypeToken} {gap : List Char}
    (white : gap.all isWhiteSpace = true) (sound : token.isSound = true) (rest : List Char) :
    compact before.isWordy (gap ++ (token.chars ++ rest)) =
      compactSpace before gap token ++ (token.chars ++ compact token.isWordy rest) := by
  by_cases empty : gap = []
  · subst empty
    have none : compactSpace before [] token = [] := if_neg fun all => all.2.2 rfl
    rw [none, List.nil_append, List.nil_append, compact_token sound]
  · have isWordy_head : (token.chars ++ rest).head?.any isWordy = token.isWordy := by
      cases token with
      | word chars =>
        rw [TypeToken.isSound, Bool.and_eq_true, Bool.not_eq_true', List.isEmpty_eq_false_iff,
          List.all_eq_true] at sound
        obtain ⟨c, others, rfl⟩ := List.exists_cons_of_ne_nil sound.1
        exact isWordy_of_isTokenPart (sound.2 c (List.mem_cons_self ..))
      | or => rfl
      | mark kind => cases kind <;> first | rfl | contradiction
    have settled : Settled (token.chars ++ rest) := by
      intro c first
      rw [List.head?_append_of_ne_nil _ (TypeToken.chars_ne_nil sound)] at first
      exact TypeToken.chars_solid sound c (List.mem_of_mem_head? first)
    rw [compact_append_of_isWhiteSpace white empty settled, isWordy_head, compact_token sound]
    congr 1
    cases first : before.isWordy <;> cases second : token.isWordy <;>
      simp [compactSpace, first, second, empty]

/-- The compact text of a layout keeps its tokens. -/
theorem TypeLayout.compact_source {layout : TypeLayout} (sound : layout.Sound) (behindWord : Bool) :
    compact behindWord layout.source = layout.spelled compactSpace := by
  obtain ⟨first, others⟩ := layout
  obtain ⟨firstSound, othersSound⟩ := sound
  simp only [source, spelled] at firstSound othersSound ⊢
  rw [compact_token firstSound]
  clear firstSound
  congr 1
  induction others generalizing first with
  | nil => rfl
  | cons pair others inductionHypothesis =>
    obtain ⟨gap, token⟩ := pair
    obtain ⟨⟨white, tokenSound⟩, restSound⟩ := List.forall_mem_cons.mp othersSound
    rw [spelledBehind, spelledBehind, compact_gap white tokenSound,
      inductionHypothesis token restSound]

/-- A type and its string have the same compact text. -/
theorem TypeLayout.compact_shown {layout : TypeLayout} (sound : layout.Sound) (behindWord : Bool) :
    compact behindWord layout.shown = compact behindWord layout.source := by
  rw [← source_rendered, compact_source sound.rendered, compact_source sound]
  simp only [spelled, rendered, spelledBehind_shownBehind, compactSpace_shownSpace]

/-- A question mark is pulled to the body of its type in the compact text. -/
theorem TypeLayout.compact_question {layout : TypeLayout} (sound : layout.Sound) {gap : List Char}
    (white : gap.all isWhiteSpace = true) (behindWord : Bool) :
    compact behindWord (layout.source ++ (gap ++ ['?'])) =
      compact behindWord layout.source ++ ['?'] := by
  have question : (single (.mark .question)).Sound := .single rfl
  have whole := sound.join question white
  have text_eq : (layout.join gap (.single (.mark .question))).source =
      layout.source ++ (gap ++ ['?']) := spelled_join
  rw [← text_eq, compact_source whole, compact_source sound, spelled_join]
  have space : compactSpace layout.last gap (.mark .question) = [] :=
    if_neg fun all => nomatch all.2.1
  rw [single, space]
  rfl

/-! ### Ends of layouts -/

/-- A layout ends with its last token. -/
theorem TypeLayout.source_ends (layout : TypeLayout) :
    ∃ front, layout.source = front ++ layout.last.chars := by
  obtain ⟨first, others⟩ := layout
  simp only [source, spelled, last]
  induction others generalizing first with
  | nil => exact ⟨[], List.append_nil _⟩
  | cons pair others inductionHypothesis =>
    obtain ⟨gap, token⟩ := pair
    obtain ⟨front, same⟩ := inductionHypothesis token
    refine ⟨first.chars ++ (gap ++ front), ?_⟩
    rw [spelledBehind, same, lastBehind]
    simp only [List.append_assoc]

/-- No white space stands at the end of a layout. -/
theorem TypeLayout.gap_eq_nil {layout : TypeLayout} (sound : layout.Sound) {front gap : List Char}
    (white : gap.all isWhiteSpace = true) (split : layout.source = front ++ gap) : gap = [] := by
  by_contra nonempty
  obtain ⟨other, same⟩ := layout.source_ends
  have charsNonempty := TypeToken.chars_ne_nil sound.last
  have last_eq : gap.getLast nonempty = layout.last.chars.getLast charsNonempty := by
    have ends := congrArg List.getLast? (split.symm.trans same)
    rw [List.getLast?_append_of_ne_nil _ nonempty, List.getLast?_append_of_ne_nil _ charsNonempty,
      List.getLast?_eq_some_getLast nonempty, List.getLast?_eq_some_getLast charsNonempty] at ends
    exact Option.some.inj ends
  have solid := TypeToken.chars_solid sound.last _ (List.getLast_mem charsNonempty)
  rw [← last_eq, List.all_eq_true.mp white _ (List.getLast_mem nonempty)] at solid
  contradiction

/-- A layout starts with its first token. -/
theorem TypeLayout.settled_source {layout : TypeLayout} (sound : layout.Sound) :
    Settled layout.source := by
  intro c first
  rw [source, spelled, List.head?_append_of_ne_nil _ (TypeToken.chars_ne_nil sound.first)] at first
  exact TypeToken.chars_solid sound.first c (List.mem_of_mem_head? first)

/-! ### Strings of types -/

/-- Where nothing is left, everything was taken. -/
theorem consumed_nil (text : List Char) : consumed text [] = text := by
  have whole := consumed_of_append text []
  rw [List.append_nil] at whole
  exact whole

/-- A string of a type is a layout of the tokens of the type, with the same compact text. -/
theorem SpellsType.rendered {use : TypeUse} {text : List Char} (spells : SpellsType use text) :
    Settled text ∧ ∃ layout : TypeLayout, layout.Sound ∧ layout.source = use.text.toList ∧
      compact false layout.source = compact false text := by
  cases spells with
  | @body _ form layout laid =>
    refine ⟨laid.source ▸ TypeLayout.settled_source laid.sound, layout.rendered,
      laid.sound.rendered, TypeLayout.source_rendered.trans laid.toList_squeezed.symm, ?_⟩
    rw [TypeLayout.source_rendered, TypeLayout.compact_shown laid.sound, laid.source]
  | @nullable body gap form layout laid solid white =>
    have shown : (squeezed body ++ "?").toList = layout.shown ++ ['?'] := by
      rw [String.toList_append, laid.toList_squeezed]
      rfl
    have whole := laid.nullable white
    have question : (TypeLayout.single (.mark .question)).Sound := .single rfl
    have noGap : ([] : List Char).all isWhiteSpace = true := rfl
    have source_eq : (layout.rendered.join [] (.single (.mark .question))).source =
        layout.shown ++ ['?'] := by
      rw [TypeLayout.source, TypeLayout.spelled_join, ← TypeLayout.source_rendered]
      rfl
    refine ⟨whole.source ▸ TypeLayout.settled_source whole.sound,
      layout.rendered.join [] (.single (.mark .question)),
      laid.sound.rendered.join question noGap, source_eq.trans shown.symm, ?_⟩
    have compact_eq := TypeLayout.compact_question laid.sound.rendered noGap false
    rw [List.nil_append, TypeLayout.source_rendered] at compact_eq
    rw [source_eq, compact_eq, TypeLayout.compact_shown laid.sound, ← laid.source,
      TypeLayout.compact_question laid.sound white]

/-- Squeezing the string of a body once more changes nothing. -/
theorem LaidType.squeezed_again {text : List Char} {form : TypeForm} {layout : TypeLayout}
    (laid : LaidType text form layout) : squeezed (squeezed text).toList = squeezed text := by
  rw [laid.squeezed_eq, squeezed, String.toList_ofList,
    TypeLayout.squeeze_shown laid.sound laid.last_ne_comma]

/-- A type that is read from the string of a type has the same string if it has the same form. -/
theorem SpellsType.eq_of_form {use other : TypeUse} {text : List Char}
    (spells : SpellsType use text) (otherSpells : SpellsType other use.text.toList)
    (sameForm : other.form = use.form) : other = use := by
  cases spells with
  | @body _ form layout laid solid notNullable =>
    -- the text has to be a variable for the cases of its other spelling
    generalize same : (TypeUse.mk form (squeezed text)).text.toList = shown at otherSpells
    cases otherSpells with
    | body => rw [TypeUse.mk.injEq, ← same]; exact ⟨sameForm, laid.squeezed_again⟩
    | nullable => exact absurd sameForm.symm (notNullable _)
  | @nullable body gap form layout laid solid white =>
    have shown : (squeezed body).toList = layout.rendered.source :=
      laid.toList_squeezed.trans TypeLayout.source_rendered.symm
    generalize same : (TypeUse.mk (.nullable form) (squeezed body ++ "?")).text.toList = whole
      at otherSpells
    cases otherSpells with
    | body otherLaid otherSolid notNullable => exact absurd sameForm (notNullable _)
    | @nullable otherBody otherGap otherForm otherLayout otherLaid otherSolid otherWhite =>
      rw [String.toList_append, ← List.append_assoc] at same
      have split : layout.rendered.source = otherBody ++ otherGap :=
        shown.symm.trans (List.append_cancel_right (same : _ ++ ['?'] = _ ++ ['?']))
      have noGap := TypeLayout.gap_eq_nil laid.sound.rendered otherWhite split
      rw [noGap, List.append_nil, ← shown] at split
      rw [TypeUse.mk.injEq, ← split, laid.squeezed_again]
      exact ⟨sameForm, rfl⟩

/-- A text with the same compact text holds comments or brackets only if the other one does. -/
theorem bare_of_compact {text other : List Char} (bare : Bare text)
    (same : compact false other = compact false text) : Bare other := by
  have kept {c : Char} (solid : isWhiteSpace c = false) (outside : c ∉ text) : c ∉ other := by
    intro member
    have inCompact : c ∈ compact false text := same ▸ mem_compact_of_solid solid member
    rcases mem_compact inCompact with inText | rfl
    · exact outside inText
    · contradiction
  exact ⟨kept rfl bare.noSlash, kept rfl bare.noBracket⟩

/-- A type is read from every text with the same compact text, up to white space at its end. -/
theorem read_type_of_compact {text other : List Char} {use : TypeUse}
    (found : grammar.read Idl.type text = some (use, [])) (noSlash : '/' ∉ text)
    (otherNoSlash : '/' ∉ other) (settled : Settled text) (otherSettled : Settled other)
    (same : compact false other = compact false text) :
    ∃ otherUse taken rest, grammar.read Idl.type other = some (otherUse, rest) ∧
      other = taken ++ rest ∧ rest.all isWhiteSpace = true ∧ otherUse.form = use.form := by
  have tandem := read_type_compact noSlash settled false
  have otherTandem := read_type_compact otherNoSlash otherSettled false
  rw [found] at tandem
  rw [same] at otherTandem
  rcases tandem.cases with ⟨missing, -⟩ |
    ⟨_, _, _, _, middle, _, reading, middleFound, -, -, form, -, -, _, ends⟩
  · contradiction
  obtain ⟨rfl, rfl⟩ := Prod.mk.inj (Option.some.inj reading)
  rw [middleFound, ends] at otherTandem
  rcases otherTandem.cases with ⟨-, missing⟩ |
    ⟨taken, otherUse, rest, _, _, _, otherFound, reading, split, -, otherForm, -, -, _, otherEnds⟩
  · contradiction
  obtain ⟨rfl, rfl⟩ := Prod.mk.inj (Option.some.inj reading)
  exact ⟨otherUse, taken, rest, otherFound, split, all_isWhiteSpace_of_compact otherEnds.symm,
    otherForm.trans form.symm⟩

/-- The string of a type without comments and extended attributes is a type again: it is read as a
whole, as a type of the same form and with the same string. -/
theorem read_type_again {text : List Char} {use : TypeUse}
    (found : grammar.read Idl.type text = some (use, [])) (noComment : '/' ∉ text)
    (noExtAttrs : '[' ∉ text) : grammar.read Idl.type use.text.toList = some (use, []) := by
  have bare : Bare text := ⟨noComment, noExtAttrs⟩
  have spells := spellsType_of_read found ((consumed_nil text).symm ▸ bare)
  rw [consumed_nil] at spells
  obtain ⟨settled, layout, sound, source_eq, same⟩ := spells.rendered
  have shownSettled : Settled use.text.toList := source_eq ▸ TypeLayout.settled_source sound
  rw [source_eq] at same
  have shownBare := bare_of_compact bare same
  obtain ⟨other, taken, rest, otherFound, split, white, form⟩ :=
    read_type_of_compact found noComment shownBare.noSlash settled shownSettled same
  rw [TypeLayout.gap_eq_nil sound white (source_eq.trans split)] at otherFound
  have otherSpells := spellsType_of_read otherFound ((consumed_nil _).symm ▸ shownBare)
  rw [consumed_nil] at otherSpells
  rw [otherFound, spells.eq_of_form otherSpells form]

/-- The space in front of the inner question mark stays, and the outer one is pulled to its type. -/
theorem read_type_again_union :
    ∃ use, grammar.read Idl.type "( unsigned  long or sequence< A ?> ) ?".toList = some (use, []) ∧
      use.text = "(unsigned long or sequence<A ?>)?" ∧
      grammar.read Idl.type use.text.toList = some (use, []) := by
  have reading : (grammar.read Idl.type "( unsigned  long or sequence< A ?> ) ?".toList).map
      (fun reading => (reading.1.text, reading.2)) =
        some ("(unsigned long or sequence<A ?>)?", []) := by
    decide +kernel
  obtain ⟨⟨use, rest⟩, found, same⟩ := Option.map_eq_some_iff.mp reading
  obtain ⟨text, rfl⟩ : use.text = _ ∧ rest = _ := by simpa using same
  exact ⟨use, found, text, read_type_again found (by decide +kernel) (by decide +kernel)⟩

end InterfaceAudit.Idl
