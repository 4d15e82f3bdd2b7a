import InterfaceAudit.Proofs.Idl.Words
import InterfaceAudit.Proofs.Text.Spacing

/-!
Layouts of types: the tokens of a type with the white space between them.
Squeezing a layout keeps the tokens and chooses the space between two of them anew, which is not
always the space that the type calls for.
-/

namespace InterfaceAudit.Idl

open Text (squeeze Unindented)

/-! ### Tokens -/

/-- A type is written in words, in the word between alternatives and in marks. -/
inductive TypeToken where
  | word (chars : List Char)
  | or
  | mark (kind : Mark)
  deriving DecidableEq, Repr

namespace TypeToken

def chars : TypeToken → List Char
  | .word chars => chars
  | .or => Keyword.or.spelling
  | .mark kind => [kind.char]

/-- A question mark counts as a word when a type is squeezed. -/
def isPlain : TypeToken → Bool
  | .word _ | .or | .mark .question => true
  | .mark _ => false

def isWord : TypeToken → Bool
  | .word _ => true
  | _ => false

/-- The marks of types. -/
def typeMarks : List Mark :=
  [.less, .greater, .openParenthesis, .closeParenthesis, .comma, .question]

def isSound : TypeToken → Bool
  | .word chars => !chars.isEmpty && chars.all isTokenPart
  | .or => true
  | .mark kind => typeMarks.contains kind

/-- A run of token parts is a sound word. -/
theorem isSound_word {word : List Char} (nonempty : word ≠ [])
    (parts : word.all isTokenPart = true) : (TypeToken.word word).isSound = true := by
  rw [isSound, parts, Bool.and_true, Bool.not_eq_true']
  exact List.isEmpty_eq_false_iff.mpr nonempty

/-- A type begins with a word or with the parenthesis of a union. -/
def startsType : TypeToken → Bool
  | .word _ | .mark .openParenthesis => true
  | _ => false

/-- A type ends with a word, a closing bracket or a question mark. -/
def endsType : TypeToken → Bool
  | .word _ | .mark .greater | .mark .closeParenthesis | .mark .question => true
  | _ => false

/-- Words are plain, as are the word between alternatives and the question mark. -/
theorem isPlain_of_isWord {token : TypeToken} (word : token.isWord = true) :
    token.isPlain = true := by
  cases token with
  | word chars => rfl
  | or | mark kind => contradiction

variable {token : TypeToken} (sound : token.isSound = true)

include sound

/-- A plain token has plain characters only. -/
theorem all_isPlain (plain : token.isPlain = true) : token.chars.all Text.isPlain = true := by
  cases token with
  | word chars =>
    rw [isSound, Bool.and_eq_true, List.all_eq_true] at sound
    exact List.all_eq_true.mpr fun c member => isPlain_of_isTokenPart (sound.2 c member)
  | or => decide
  | mark kind => cases kind <;> first | rfl | contradiction

/-- A sound token has at least one character. -/
theorem chars_ne_nil : token.chars ≠ [] := by
  cases token with
  | word chars =>
    rw [isSound, Bool.and_eq_true, Bool.not_eq_true', List.isEmpty_eq_false_iff] at sound
    exact sound.1
  | or => decide
  | mark kind => exact List.cons_ne_nil _ _

/-- A token that is not plain is a mark of the squeezed spelling. -/
theorem chars_of_not_plain (special : token.isPlain = false) :
    ∃ c, token.chars = [c] ∧ Text.isMark c = true ∧ (c == ',') = (token == .mark .comma) := by
  cases token with
  | word | or => contradiction
  | mark kind => cases kind <;> first | contradiction | exact ⟨_, rfl, rfl, rfl⟩

/-- A token begins with no blank, and with a plain character if it is plain. -/
theorem chars_head : ∃ c rest, token.chars = c :: rest ∧ Text.isBlank c = false ∧
    Text.isPlain c = token.isPlain := by
  by_cases plain : token.isPlain = true
  · obtain ⟨c, rest, same⟩ := List.exists_cons_of_ne_nil (chars_ne_nil sound)
    have all := all_isPlain sound plain
    rw [same, List.all_cons, Bool.and_eq_true] at all
    have notBlank := all.1
    rw [Text.isPlain, Bool.and_eq_true, Bool.not_eq_true', Bool.not_eq_true'] at notBlank
    exact ⟨c, rest, same, notBlank.2, all.1.trans plain.symm⟩
  · obtain ⟨c, same, isMark, -⟩ := chars_of_not_plain sound (eq_false_of_ne_true plain)
    have notBlank : Text.isBlank c = false := by
      by_contra blank
      rw [Text.isMark_false_of_isBlank (by simpa using blank)] at isMark
      contradiction
    refine ⟨c, [], same, notBlank, ?_⟩
    rw [eq_false_of_ne_true plain, Text.isPlain, isMark]
    rfl

end TypeToken

/-! ### Spaces -/

/-- What squeezing leaves between two tokens: a space behind a comma, and a space between two plain
tokens if there is any white space between them. -/
def shownSpace (before : TypeToken) (gap : List Char) (token : TypeToken) : List Char :=
  if before = .mark .comma ∨ (before.isPlain ∧ token.isPlain ∧ gap ≠ []) then [' '] else []

/-- What the type calls for: a space behind a comma, around `or` and between the words of a
primitive type. -/
def canonicalSpace (before token : TypeToken) : List Char :=
  if before = .mark .comma ∨ before = .or ∨ token = .or ∨ (before.isWord ∧ token.isWord) then [' ']
  else []

/-- Two tokens between which squeezing leaves another space than the type calls for: `or` beside a
bracket, a question mark behind white space, or `or` with no white space beside it. -/
def Blemish (before : TypeToken) (gap : List Char) (token : TypeToken) : Prop :=
  if before.isPlain ∧ token.isPlain then gap = [] ↔ canonicalSpace before token = [' ']
  else before ≠ .mark .comma ∧ (before = .or ∨ token = .or)

instance (before : TypeToken) (gap : List Char) (token : TypeToken) :
    Decidable (Blemish before gap token) := by
  unfold Blemish
  infer_instance

/-- The shown space is the canonical one unless there is a blemish. -/
theorem shownSpace_eq_iff (before : TypeToken) (gap : List Char) (token : TypeToken) :
    shownSpace before gap token = canonicalSpace before token ↔ ¬Blemish before gap token := by
  by_cases comma : before = .mark .comma
  · subst comma
    simp [shownSpace, canonicalSpace, Blemish, TypeToken.isPlain]
  · by_cases plain : before.isPlain = true ∧ token.isPlain = true
    · by_cases empty : gap = [] <;> by_cases called : before = .or ∨ token = .or ∨
          (before.isWord = true ∧ token.isWord = true) <;>
        simp [shownSpace, canonicalSpace, Blemish, comma, plain, empty, called]
    · have apart : ¬(before.isWord = true ∧ token.isWord = true) := fun words =>
        plain ⟨TypeToken.isPlain_of_isWord words.1, TypeToken.isPlain_of_isWord words.2⟩
      have noSpace : ¬(before.isPlain = true ∧ token.isPlain = true ∧ gap ≠ []) :=
        fun all => plain ⟨all.1, all.2.1⟩
      simp only [shownSpace, canonicalSpace, Blemish, comma, plain, apart, noSpace, false_or,
        or_false, if_false, ne_eq, not_false_eq_true, true_and]
      split <;> simp [*]

/-- Without white space none is shown, except behind a comma. -/
theorem shownSpace_nil {before : TypeToken} (notComma : before ≠ .mark .comma)
    (token : TypeToken) : shownSpace before [] token = [] := by
  refine if_neg ?_
  rintro (comma | ⟨-, -, nonempty⟩)
  · exact notComma comma
  · exact nonempty rfl

/-- At most one space is shown between two tokens. -/
theorem shownSpace_cases (before : TypeToken) (gap : List Char) (token : TypeToken) :
    shownSpace before gap token = [] ∨ shownSpace before gap token = [' '] := by
  unfold shownSpace
  split
  · exact .inr rfl
  · exact .inl rfl

/-- At most one space is called for between two tokens. -/
theorem canonicalSpace_cases (before token : TypeToken) :
    canonicalSpace before token = [] ∨ canonicalSpace before token = [' '] := by
  unfold canonicalSpace
  split
  · exact .inr rfl
  · exact .inl rfl

/-- Squeezing once more leaves the same space. -/
theorem shownSpace_shownSpace (before : TypeToken) (gap : List Char) (token : TypeToken) :
    shownSpace before (shownSpace before gap token) token = shownSpace before gap token := by
  by_cases space : before = .mark .comma ∨ (before.isPlain = true ∧ token.isPlain = true ∧ gap ≠ [])
  · have shown : shownSpace before gap token = [' '] := if_pos space
    rw [shown, shownSpace, if_pos]
    exact space.imp_right fun both => ⟨both.1, both.2.1, List.cons_ne_nil _ _⟩
  · have shown : shownSpace before gap token = [] := if_neg space
    rw [shown, shownSpace, if_neg]
    exact fun other => space (other.imp_right fun both => absurd rfl both.2.2)

/-! ### Layouts -/

/-- The first token, and the other tokens with the white space in front of each. -/
structure TypeLayout where
  first : TypeToken
  others : List (List Char × TypeToken)
  deriving DecidableEq, Repr

/-- The tokens behind another one, with a space between each two that depends on both of them and on
the white space between them. -/
def spelledBehind (space : TypeToken → List Char → TypeToken → List Char) :
    TypeToken → List (List Char × TypeToken) → List Char
  | _, [] => []
  | before, (gap, token) :: others =>
    space before gap token ++ (token.chars ++ spelledBehind space token others)

def lastBehind : TypeToken → List (List Char × TypeToken) → TypeToken
  | before, [] => before
  | _, (_, token) :: others => lastBehind token others

/-- No two neighbouring tokens are a blemish. -/
def NeatBehind : TypeToken → List (List Char × TypeToken) → Prop
  | _, [] => True
  | before, (gap, token) :: others => ¬Blemish before gap token ∧ NeatBehind token others

instance NeatBehind.decidable (before : TypeToken) (others : List (List Char × TypeToken)) :
    Decidable (NeatBehind before others) :=
  match others with
  | [] => inferInstanceAs (Decidable True)
  | (gap, token) :: rest =>
    have := NeatBehind.decidable token rest
    inferInstanceAs (Decidable (¬Blemish before gap token ∧ NeatBehind token rest))

namespace TypeLayout

def spelled (space : TypeToken → List Char → TypeToken → List Char) (layout : TypeLayout) :
    List Char :=
  layout.first.chars ++ spelledBehind space layout.first layout.others

/-- The tokens with the white space between them as it is. -/
def source (layout : TypeLayout) : List Char := layout.spelled fun _ gap _ => gap

def shown (layout : TypeLayout) : List Char := layout.spelled shownSpace

def canonical (layout : TypeLayout) : List Char :=
  layout.spelled fun before _ token => canonicalSpace before token

def last (layout : TypeLayout) : TypeToken := lastBehind layout.first layout.others

def Neat (layout : TypeLayout) : Prop := NeatBehind layout.first layout.others

instance (layout : TypeLayout) : Decidable layout.Neat :=
  inferInstanceAs (Decidable (NeatBehind layout.first layout.others))

/-- Tokens are complete, and nothing but white space stands between them. -/
structure Sound (layout : TypeLayout) : Prop where
  first : layout.first.isSound = true
  others : ∀ space ∈ layout.others,
    space.1.all Text.isWhiteSpace = true ∧ space.2.isSound = true

def single (token : TypeToken) : TypeLayout := ⟨token, []⟩

/-- Two layouts with white space between them. -/
def join (layout : TypeLayout) (gap : List Char) (other : TypeLayout) : TypeLayout :=
  ⟨layout.first, layout.others ++ (gap, other.first) :: other.others⟩

/-- A question mark that ends the whole type is put directly behind its body. -/
def pulled (layout : TypeLayout) : TypeLayout :=
  match layout.others.getLast? with
  | some (_, .mark .question) =>
    ⟨layout.first, layout.others.dropLast ++ [([], .mark .question)]⟩
  | _ => layout

end TypeLayout

/-- What follows some tokens is spelled behind the last of them. -/
theorem spelledBehind_append (space : TypeToken → List Char → TypeToken → List Char)
    (before : TypeToken) (front back : List (List Char × TypeToken)) :
    spelledBehind space before (front ++ back) =
      spelledBehind space before front ++ spelledBehind space (lastBehind before front) back := by
  induction front generalizing before with
  | nil => rfl
  | cons pair front inductionHypothesis =>
    obtain ⟨gap, token⟩ := pair
    rw [List.cons_append, spelledBehind, inductionHypothesis, spelledBehind, lastBehind]
    simp only [List.append_assoc]

/-- The last token of two rows is that of the second one. -/
theorem lastBehind_append (before : TypeToken) (front back : List (List Char × TypeToken)) :
    lastBehind before (front ++ back) = lastBehind (lastBehind before front) back := by
  induction front generalizing before with
  | nil => rfl
  | cons pair front inductionHypothesis => exact inductionHypothesis pair.2

namespace TypeLayout

variable {layout other : TypeLayout} {gap : List Char}
  {space : TypeToken → List Char → TypeToken → List Char}

@[simp] theorem spelled_single (token : TypeToken) : (single token).spelled space = token.chars :=
  List.append_nil _

/-- Joined layouts are spelled with the space between the last and the first token. -/
theorem spelled_join : (layout.join gap other).spelled space =
    layout.spelled space ++ (space layout.last gap other.first ++ other.spelled space) := by
  simp only [spelled, join, spelledBehind_append, spelledBehind, last, List.append_assoc]

@[simp] theorem first_join : (layout.join gap other).first = layout.first := rfl

@[simp] theorem last_join : (layout.join gap other).last = other.last := by
  simp only [last, join, lastBehind_append, lastBehind]

/-- Sound layouts with white space between them make up a sound one. -/
theorem Sound.join (sound : layout.Sound) (otherSound : other.Sound)
    (white : gap.all Text.isWhiteSpace = true) : (layout.join gap other).Sound where
  first := sound.first
  others space member := by
    rcases List.mem_append.mp member with inFirst | inSecond
    · exact sound.others space inFirst
    · rcases List.mem_cons.mp inSecond with rfl | inOther
      · exact ⟨white, otherSound.first⟩
      · exact otherSound.others space inOther

theorem Sound.single {token : TypeToken} (sound : token.isSound = true) :
    (TypeLayout.single token).Sound :=
  ⟨sound, nofun⟩

/-- The last token of a sound layout is complete. -/
theorem Sound.last (sound : layout.Sound) : layout.last.isSound = true := by
  obtain ⟨first, others⟩ := layout
  obtain ⟨firstSound, othersSound⟩ := sound
  change (lastBehind first others).isSound = true
  induction others generalizing first with
  | nil => exact firstSound
  | cons space others inductionHypothesis =>
    exact inductionHypothesis space.2 (othersSound space (List.mem_cons_self ..)).2
      fun other member => othersSound other (List.mem_cons_of_mem _ member)

/-! ### Squeezing -/

/-- The last token of a type is squeezed to itself, unless it is a comma. -/
theorem squeeze_last {token : TypeToken} (sound : token.isSound = true)
    (notComma : token ≠ .mark .comma) : squeeze token.chars = token.chars := by
  by_cases plain : token.isPlain = true
  · have nothing : Unindented [] := nofun
    have same := Text.squeeze_run (TypeToken.all_isPlain sound plain) nothing
    rw [List.append_nil] at same
    rw [same]
    exact List.append_nil _
  · obtain ⟨c, same, isMark, comma⟩ :=
      TypeToken.chars_of_not_plain sound (eq_false_of_ne_true plain)
    rw [same, Text.squeeze_mark isMark, comma, beq_false_of_ne notComma]
    rfl

/-- The space that is shown between two tokens depends on them and on the white space between
them. -/
theorem squeeze_token {before token : TypeToken} (sound : before.isSound = true)
    {gap : List Char} (white : gap.all Text.isWhiteSpace = true) (tokenSound : token.isSound = true)
    (rest : List Char) :
    squeeze (before.chars ++ (gap ++ (token.chars ++ rest))) =
      before.chars ++ (shownSpace before gap token ++ squeeze (token.chars ++ rest)) := by
  obtain ⟨c, chars, head, notBlank, tokenPlain⟩ := TypeToken.chars_head tokenSound
  rw [head, List.cons_append]
  have unindented : Unindented (c :: (chars ++ rest)) := Text.unindented_cons notBlank
  by_cases plain : before.isPlain = true
  · have all := TypeToken.all_isPlain sound plain
    have notComma : before ≠ .mark .comma := by
      rintro rfl
      contradiction
    by_cases empty : gap = []
    · subst empty
      rw [List.nil_append, Text.squeeze_run all unindented, shownSpace_nil notComma,
        List.nil_append]
    · rw [Text.squeeze_run_gap all (TypeToken.chars_ne_nil sound)
        (gap_of_isWhiteSpace white empty) unindented, List.head?_cons, Option.any_some, tokenPlain]
      simp [shownSpace, notComma, plain, empty]
  · obtain ⟨d, same, isMark, comma⟩ :=
      TypeToken.chars_of_not_plain sound (eq_false_of_ne_true plain)
    have blank : Text.Blank gap := fun d member => by
      rw [Text.isBlank, List.all_eq_true.mp white d member, Bool.true_or]
    rw [same, List.cons_append, List.nil_append, Text.squeeze_mark isMark, Text.squeeze_blank blank,
      comma]
    simp [shownSpace, plain]

/-- A sound layout is squeezed token by token. -/
theorem squeeze_source (sound : layout.Sound) (ends : layout.last ≠ .mark .comma) :
    squeeze layout.source = layout.shown := by
  obtain ⟨first, others⟩ := layout
  obtain ⟨firstSound, othersSound⟩ := sound
  simp only [source, shown, spelled] at firstSound othersSound ends ⊢
  induction others generalizing first with
  | nil =>
    change first ≠ .mark .comma at ends
    rw [spelledBehind, spelledBehind, List.append_nil, squeeze_last firstSound ends]
  | cons pair others inductionHypothesis =>
    obtain ⟨gap, token⟩ := pair
    obtain ⟨⟨white, tokenSound⟩, restSound⟩ := List.forall_mem_cons.mp othersSound
    rw [spelledBehind, spelledBehind, squeeze_token firstSound white tokenSound,
      inductionHypothesis token ends tokenSound restSound]

/-! ### Canonical spelling -/

/-- Spaces between tokens are told from the tokens by their first characters. -/
theorem append_space_inj {one another : List Char} {token : TypeToken} {rest otherRest : List Char}
    (sound : token.isSound = true) (oneCases : one = [] ∨ one = [' '])
    (anotherCases : another = [] ∨ another = [' ']) :
    one ++ (token.chars ++ rest) = another ++ (token.chars ++ otherRest) ↔
      one = another ∧ rest = otherRest := by
  obtain ⟨c, chars, head, notBlank, -⟩ := TypeToken.chars_head sound
  have notSpace : c ≠ ' ' := by
    rintro rfl
    contradiction
  rcases oneCases with rfl | rfl <;> rcases anotherCases with rfl | rfl <;>
    simp [head, notSpace, Ne.symm notSpace]

/-- A squeezed layout is canonical exactly when it has no blemish. -/
theorem shown_eq_canonical_iff (sound : layout.Sound) :
    layout.shown = layout.canonical ↔ layout.Neat := by
  obtain ⟨first, others⟩ := layout
  have othersSound := sound.others
  simp only [shown, canonical, spelled, Neat, List.append_cancel_left_eq] at othersSound ⊢
  induction others generalizing first with
  | nil => simp [spelledBehind, NeatBehind]
  | cons pair others inductionHypothesis =>
    obtain ⟨gap, token⟩ := pair
    obtain ⟨⟨-, tokenSound⟩, restSound⟩ := List.forall_mem_cons.mp othersSound
    rw [spelledBehind, spelledBehind, append_space_inj tokenSound (shownSpace_cases ..)
      (canonicalSpace_cases ..), shownSpace_eq_iff]
    exact and_congr_right fun _ => inductionHypothesis token ⟨tokenSound, restSound⟩ restSound

end TypeLayout

end InterfaceAudit.Idl
