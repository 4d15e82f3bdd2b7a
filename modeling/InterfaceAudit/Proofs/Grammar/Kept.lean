import InterfaceAudit.Proofs.Grammar.Extension

/-!
Kept readings: what a phrase reads from a text it reads from every longer text.
A choice is kept when no earlier alternative begins to match on a longer text.
-/

namespace InterfaceAudit.Grammar

open Expression (thenSkip)

variable {Token : Type} {Rule : Type → Type} {First Second Result Item Filler : Type}
  {grammar : Grammar Token Rule}

/-- What a kept phrase reads it also reads from every longer text. -/
def Kept (grammar : Grammar Token Rule) (expression : Expression Token Rule Result) : Prop :=
  ∀ ⦃text rest : List Char⦄ ⦃value : Result⦄, grammar.read expression text = some (value, rest) →
    ∀ extension, grammar.read expression (text ++ extension) = some (value, rest ++ extension)

/-- The value that is built does not change on a longer text. -/
theorem Kept.map {inner : Expression Token Rule First} (kept : Kept grammar inner)
    (build : First → Result) : Kept grammar (.map build inner) := by
  intro text rest value found extension
  obtain ⟨innerValue, innerFound, rfl⟩ := (read_map_eq_some grammar text).mp found
  exact (read_map_eq_some grammar _).mpr ⟨innerValue, kept innerFound extension, rfl⟩

/-- The source of a kept phrase does not change on a longer text. -/
theorem Kept.source {inner : Expression Token Rule First} (kept : Kept grammar inner) :
    Kept grammar (.source inner) := by
  intro text rest value found extension
  obtain ⟨innerFound, source⟩ := (read_source_eq_some grammar text).mp found
  rw [← consumed_append text rest extension] at source
  exact (read_source_eq_some grammar _).mpr ⟨kept innerFound extension, source⟩

/-- One alternative excludes another when, wherever the other matches, the first cannot begin to
match on a longer text. -/
def Excludes (grammar : Grammar Token Rule) (first : Expression Token Rule First)
    (second : Expression Token Rule Second) : Prop :=
  ∀ ⦃text : List Char⦄ (extension : List Char), grammar.read first text = none →
    (grammar.read second text).isSome = true → grammar.read first (text ++ extension) = none

/-- A choice is kept when its first alternative does not come up on a longer text. -/
theorem Kept.choice {first second : Expression Token Rule Result} (firstKept : Kept grammar first)
    (secondKept : Kept grammar second) (excludes : Excludes grammar first second) :
    Kept grammar (.choice first second) := by
  intro text rest value found extension
  rw [read_choice_eq_some] at found ⊢
  rcases found with firstFound | ⟨firstMissing, secondFound⟩
  · exact .inl (firstKept firstFound extension)
  · refine .inr ⟨excludes extension firstMissing ?_, secondKept secondFound extension⟩
    rw [secondFound]
    rfl

namespace Excludes

/-- What an alternative builds does not matter for when it fails. -/
theorem map_left {first : Expression Token Rule First} {second : Expression Token Rule Second}
    (excludes : Excludes grammar first second) (build : First → Result) :
    Excludes grammar (.map build first) second := by
  intro text extension missing present
  rw [read_map, Option.map_eq_none_iff] at missing ⊢
  exact excludes extension missing present

/-- Taking the source along does not matter for when an alternative fails. -/
theorem source_left {first : Expression Token Rule First} {second : Expression Token Rule Second}
    (excludes : Excludes grammar first second) : Excludes grammar (.source first) second := by
  intro text extension missing present
  rw [read_source, Option.map_eq_none_iff] at missing ⊢
  exact excludes extension missing present

/-- What the later alternative builds does not matter. -/
theorem map_right {first : Expression Token Rule First} {second : Expression Token Rule Second}
    (excludes : Excludes grammar first second) (build : Second → Result) :
    Excludes grammar first (.map build second) := by
  intro text extension missing present
  rw [read_map, Option.isSome_map] at present
  exact excludes extension missing present

/-- Taking the source of the later alternative along does not matter. -/
theorem source_right {first : Expression Token Rule First} {second : Expression Token Rule Second}
    (excludes : Excludes grammar first second) : Excludes grammar first (.source second) := by
  intro text extension missing present
  rw [read_source, Option.isSome_map] at present
  exact excludes extension missing present

/-- Two alternatives that fail in front of another one fail together. -/
theorem choice_left {first second : Expression Token Rule First}
    {other : Expression Token Rule Second} (firstExcludes : Excludes grammar first other)
    (secondExcludes : Excludes grammar second other) :
    Excludes grammar (.choice first second) other := by
  intro text extension missing present
  rw [read_choice, Option.or_eq_none_iff] at missing ⊢
  exact ⟨firstExcludes extension missing.1 present, secondExcludes extension missing.2 present⟩

/-- An alternative that fails in front of two others fails in front of their choice. -/
theorem choice_right {other : Expression Token Rule First}
    {first second : Expression Token Rule Second} (excludesFirst : Excludes grammar other first)
    (excludesSecond : Excludes grammar other second) :
    Excludes grammar other (.choice first second) := by
  intro text extension missing present
  rw [read_choice, Option.isSome_or, Bool.or_eq_true] at present
  rcases present with firstPresent | secondPresent
  · exact excludesFirst extension missing firstPresent
  · exact excludesSecond extension missing secondPresent

end Excludes

/-- Whatever an expression matches, it begins with the given token. -/
def Expression.StartsWith (kind : Token) {Result : Type} : Expression Token Rule Result → Prop
  | .token other => other = kind
  | .rule _ | .optional _ | .many _ => False
  | .seq first _ => first.StartsWith kind
  | .map _ inner => inner.StartsWith kind
  | .choice first second => first.StartsWith kind ∧ second.StartsWith kind
  | .source inner => inner.StartsWith kind

instance Expression.decidableStartsWith [DecidableEq Token] (kind : Token) {Result : Type} :
    (expression : Expression Token Rule Result) → Decidable (expression.StartsWith kind)
  | .token other => inferInstanceAs (Decidable (other = kind))
  | .rule _ | .optional _ | .many _ => inferInstanceAs (Decidable False)
  | .seq first _ => first.decidableStartsWith kind
  | .map _ inner => inner.decidableStartsWith kind
  | .choice first second =>
    have := first.decidableStartsWith kind
    have := second.decidableStartsWith kind
    inferInstanceAs (Decidable (_ ∧ _))
  | .source inner => inner.decidableStartsWith kind

/-- A phrase that is read starts with its first token. -/
theorem scan_isSome_of_startsWith {kind : Token} {expression : Expression Token Rule Result}
    (starts : expression.StartsWith kind) {text : List Char}
    (present : (grammar.read expression text).isSome = true) :
    (grammar.scan kind text).isSome = true := by
  induction expression with
  | token other =>
    obtain rfl := starts
    exact present
  | rule | optional | many => contradiction
  | seq first second firstHypothesis =>
    obtain ⟨⟨value, rest⟩, found⟩ := Option.isSome_iff_exists.mp present
    obtain ⟨middle, firstFound, -⟩ := (read_seq_eq_some grammar text).mp found
    exact firstHypothesis starts (by rw [firstFound]; rfl)
  | map build inner inductionHypothesis =>
    rw [read_map, Option.isSome_map] at present
    exact inductionHypothesis starts present
  | source inner inductionHypothesis =>
    rw [read_source, Option.isSome_map] at present
    exact inductionHypothesis starts present
  | choice first second firstHypothesis secondHypothesis =>
    rw [read_choice, Option.isSome_or, Bool.or_eq_true] at present
    rcases present with firstPresent | secondPresent
    · exact firstHypothesis starts.1 firstPresent
    · exact secondHypothesis starts.2 secondPresent

namespace Boundary

variable (boundary : Boundary grammar)

/-- A phrase that closes inside the boundary is kept. -/
theorem kept_of_endsIn {expression : Expression Token Rule Result}
    (ends : expression.EndsIn boundary.allowed boundary.closing)
    (start : ∀ {text}, (grammar.read expression text).isSome = true → boundary.inside text) :
    Kept grammar expression := by
  intro text rest value found extension
  have present : (grammar.read expression text).isSome = true := by rw [found]; rfl
  rw [boundary.read_append extension expression ends (start present), found, extended_some]

/-- What stays inside the boundary may stand in front of a kept phrase. -/
theorem kept_seq {first : Expression Token Rule First} {second : Expression Token Rule Second}
    (within : first.Within boundary.allowed True) (kept : Kept grammar second)
    (start : ∀ {text}, (grammar.read second text).isSome = true → boundary.inside text) :
    Kept grammar (.seq first second) := by
  intro text rest value found extension
  obtain ⟨middle, firstFound, secondFound⟩ := (read_seq_eq_some grammar text).mp found
  have insideMiddle := start (by rw [secondFound]; rfl)
  have insideText := (boundary.inside_iff_of_read first within firstFound).mpr insideMiddle
  rw [read_seq_eq_some]
  refine ⟨middle ++ extension, ?_, kept secondFound extension⟩
  rw [boundary.read_append extension first (within.endsIn _) insideText, firstFound, extended_some]

/-- An alternative that ends inside the boundary fails on the longer text as well. -/
theorem excludes_of_endsIn {first : Expression Token Rule First}
    {second : Expression Token Rule Second}
    (ends : first.EndsIn boundary.allowed boundary.closing)
    (start : ∀ {text}, (grammar.read second text).isSome = true → boundary.inside text) :
    Excludes grammar first second := by
  intro text extension missing present
  rw [boundary.read_append extension first ends (start present), missing, extended_none]

/-- Alternatives that begin with tokens of which only one can stand at a place. -/
theorem excludes_of_startsWith {first : Expression Token Rule First}
    {second : Expression Token Rule Second} {firstKind secondKind : Token}
    (firstStarts : first.StartsWith firstKind) (secondStarts : second.StartsWith secondKind)
    (allowed : boundary.allowed firstKind)
    (exclusive : ∀ text, (grammar.scan firstKind text).isSome = true →
      (grammar.scan secondKind text).isSome = true → False)
    (start : ∀ {text}, (grammar.read second text).isSome = true → boundary.inside text) :
    Excludes grammar first second := by
  intro text extension _ present
  rw [← Option.not_isSome_iff_eq_none]
  intro found
  have firstScanned := scan_isSome_of_startsWith firstStarts found
  rw [boundary.scan_append extension (.inl allowed) (start present), extended,
    Option.isSome_map] at firstScanned
  exact exclusive text firstScanned (scan_isSome_of_startsWith secondStarts present)

/-- Each item of a kept repetition is closed, so only the filler behind it looks ahead, and it
stays inside the boundary as long as another item or the end of the phrase follows. -/
theorem kept_many_seq (progressive : Progressive grammar) {item : Expression Token Rule Item}
    {filler : Expression Token Rule Filler} {last : Expression Token Rule Second}
    (ends : item.EndsIn boundary.allowed boundary.closing)
    (within : item.Within (fun kind => boundary.allowed kind ∨ boundary.closing kind) True)
    (takes : item.mayBeEmpty progressive.emptyToken = false)
    (fillerWithin : filler.Within boundary.allowed True)
    (total : ∀ text, (grammar.read filler text).isSome = true) (kept : Kept grammar last)
    (start : ∀ {text}, (grammar.read last text).isSome = true → boundary.inside text) :
    Kept grammar (.seq (.many (thenSkip item filler)) last) := by
  intro text rest value found extension
  obtain ⟨middle, itemsFound, lastFound⟩ := (read_seq_eq_some grammar text).mp found
  have insideMiddle := start (by rw [lastFound]; rfl)
  rw [read_many, Option.some.injEq] at itemsFound
  rw [read_seq_eq_some]
  refine ⟨middle ++ extension, ?_, kept lastFound extension⟩
  have settled (text : List Char) (inside : boundary.inside text)
      (next : ∀ value rest, grammar.read (thenSkip item filler) text = some (value, rest) →
        rest.length < text.length → boundary.inside rest) :
      grammar.read (thenSkip item filler) (text ++ extension) =
        extended extension (grammar.read (thenSkip item filler) text) := by
    simp only [thenSkip, read_map, read_seq] at next ⊢
    rw [boundary.read_append extension item ends inside]
    cases itemFound : grammar.read item text with
    | none => rfl
    | some reading =>
      obtain ⟨value, behind⟩ := reading
      obtain ⟨⟨space, rest⟩, fillerFound⟩ := Option.isSome_iff_exists.mp (total behind)
      have behindLength := progressive.read_length_lt item takes itemFound
      have restLength := progressive.read_length_le filler fillerFound
      have insideRest := next value rest (by simp [itemFound, fillerFound]) (by omega)
      have insideBehind :=
        (boundary.inside_iff_of_read filler fillerWithin fillerFound).mpr insideRest
      simp only [extended_some, Option.bind_some, fillerFound,
        boundary.read_append extension filler (fillerWithin.endsIn _) insideBehind]
      rfl
  have back {text rest : List Char} {value : Item}
      (found : grammar.read (thenSkip item filler) text = some (value, rest))
      (inside : boundary.inside rest) : boundary.inside text :=
    boundary.inside_of_read (thenSkip item filler)
      ⟨within, fillerWithin.mono fun _ => .inl⟩ found inside
  rw [read_many, readMany_append settled back text (by rw [itemsFound]; exact insideMiddle),
    itemsFound]

end Boundary

end InterfaceAudit.Grammar
