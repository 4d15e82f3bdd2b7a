import InterfaceAudit.Proofs.Idl.Agreement
import InterfaceAudit.Proofs.Text.Squeeze

/-!
Respacing of documents.
A document stays accepted when other white space and comments stand in one of its intervals, and its
definitions stay alike.
-/

namespace InterfaceAudit.Idl

open Grammar
open Text (Blank Gap)

/-- A run without comments is white space. -/
theorem blank_of_no_comment {run : List Char} (white : ¬HasComment run) : Blank run := by
  intro c member
  by_contra solid
  rw [Text.isBlank, Bool.or_eq_true, not_or] at solid
  exact white ⟨c, member, eq_false_of_ne_true solid.1⟩

namespace Refill

variable {refill : Refill}

/-! ### White space -/

/-- Where a gap takes the place of another, the squeezed text around it stays. -/
theorem Sources.squeeze_eq (isGap : Gap refill.run) (otherGap : Gap refill.other)
    {source otherSource : List Char} (sources : refill.Sources source otherSource) :
    Text.squeeze source = Text.squeeze otherSource := by
  cases sources with
  | same => rfl
  | @across front back _ _ _ => exact Text.squeeze_gap isGap otherGap front back

/-- White space in the place of white space changes no string. -/
theorem exact_wording (isGap : Gap refill.run) (otherGap : Gap refill.other) :
    refill.wording.Exact where
  spelled respelled := by
    cases respelled with
    | squeezed sources => rw [squeezed, squeezed, sources.squeeze_eq isGap otherGap]
    | nullable sources => rw [squeezed, squeezed, sources.squeeze_eq isGap otherGap]
    | default sources => rw [defaultText, defaultText, sources.squeeze_eq isGap otherGap]
  qualified requalified := by
    cases requalified with
    | same => rfl
    | swap _ => rw [Text.trim_append_blank isGap.blank, Text.trim_append_blank otherGap.blank]

/-! ### Documents -/

/-- Both texts are read in lockstep, from the places where tokens begin. -/
def Sound.lockstep (sound : refill.Sound) : Lockstep grammar where
  progressive := progressive
  allowed := Token.isOutright
  attempted := (· ∈ grammar.attempts file refill.text)
  bond := refill.bond
  Facing := refill.Facing
  unsettle := Facing.unsettle
  scan_blank {kind _ _} isEmpty facing := by
    obtain rfl : kind = .blank := beq_iff_eq.mp isEmpty
    exact sound.scan_blank facing
  scan_token outright attempted facing := sound.scan_token outright attempted facing
  taken facing restFacing split otherSplit := facing.taken restFacing split otherSplit
  body_settles rule := by cases rule <;> rfl
  body_bond rule _ _ twin := body_bond rule twin

/-- Behind the blanks with which they begin, both texts are at facing places. -/
theorem Sound.facing_afterBlank (sound : refill.Sound) :
    refill.Facing true (afterBlank refill.text) (afterBlank refill.otherText) := by
  have start : refill.Facing false refill.text refill.otherText :=
    .ahead (List.suffix_refl refill.before) sound.interval.closed nofun
  obtain ⟨_, _, _, _, _, facing⟩ := sound.scan_blank start
  exact facing

/-- At a settled place the end of one text faces the end of the other one. -/
theorem Facing.eq_nil {rest otherRest : List Char}
    (facing : refill.Facing true rest otherRest) (ends : rest = []) : otherRest = [] := by
  cases facing with
  | behind _ => exact ends
  | ahead _ _ nonempty =>
    have empty := (List.append_eq_nil_iff.mp ends).1
    exact absurd empty (nonempty rfl)

end Refill

/-- Items that are found alike are placed alike. -/
theorem place_alike {wording : Wording} {TextRelated : List Char → List Char → Prop}
    {items others : List (List Char × Found)}
    (alike : List.Forall₂ (Both TextRelated (Found.Alike wording)) items others)
    (line otherLine : Nat) :
    List.Forall₂ (Definition.Alike wording) (place line items) (place otherLine others) := by
  induction alike generalizing line otherLine with
  | nil => exact .nil
  | cons head _ inductionHypothesis =>
    exact .cons (head.2.withSpan _ _) (inductionHypothesis _ _)

/-- The definitions of a file, each with the blank after it. -/
def definitions : Phrase (List (List Char × Found)) := .many (.source (spaced definition))

/-- The definitions of both texts are alike, one by one. -/
theorem definitions_agrees {refill : Refill} :
    Agrees refill definitions
      (List.Forall₂ (Both refill.Sources (Found.Alike refill.wording))) :=
  .many (.source (spaced_agrees definition_agrees))

/-- Behind the first blank of a text its parse looks for definitions. -/
theorem attempts_definitions {text : List Char} {attempt : Attempt Token}
    (member : attempt ∈ grammar.attempts definitions (afterBlank text)) :
    attempt ∈ grammar.attempts file text := by
  have found : grammar.read (.source blank) text =
      some ((consumed text (afterBlank text), consumed text (afterBlank text)),
        afterBlank text) := rfl
  exact grammar.mem_attempts_seq_right found member

/-- A text is accepted when definitions follow its first blank up to its end. -/
theorem parse_eq_ok_iff {text : List Char} {document : Document} :
    Document.parse text = .ok document ↔
      ∃ items, grammar.read definitions (afterBlank text) = some (items, []) ∧
        document = ⟨place (1 + Text.newlines (consumed text (afterBlank text))) items⟩ := by
  have file_eq : grammar.read file text =
      (grammar.read definitions (afterBlank text)).map fun found =>
        (((consumed text (afterBlank text), consumed text (afterBlank text)), found.1),
          found.2) := by
    rw [file, read_seq]
    rfl
  unfold Document.parse
  rw [file_eq]
  cases grammar.read definitions (afterBlank text) with
  | none => simp
  | some reading =>
    obtain ⟨items, rest⟩ := reading
    cases rest with
    | nil => simp [eq_comm]
    | cons c rest => simp

/-- A document is accepted as well with other white space and complete comments in one of its
intervals, unless white space alone would join the words of a primitive type that its parse looks
for. Its definitions stay alike: their kinds, names and parts are the same, and a type, a default,
an extended attribute or a qualifier differs only where its source reaches over the interval. White
space in the place of white space changes nothing but the lines on which definitions stand. -/
theorem parse_refill {refill : Refill}
    (interval : Interval refill.before refill.run refill.after)
    (uncut : refill.Uncut Token.isOutright refill.run) (isBlank : IsBlank refill.other)
    (nonempty : refill.other ≠ [])
    (apart : ¬HasComment refill.other → refill.Uncut (· == .primitive) refill.other)
    {document : Document} (accepted : Document.parse refill.text = .ok document) :
    ∃ otherDocument, Document.parse refill.otherText = .ok otherDocument ∧
      List.Forall₂ (Definition.Alike refill.wording) document.definitions
        otherDocument.definitions ∧
      (refill.run ≠ [] → ¬HasComment refill.run → ¬HasComment refill.other →
        document.definitions.map (Definition.withSpan none) =
          otherDocument.definitions.map (Definition.withSpan none)) := by
  have otherInterval : PartedInterval refill.before refill.other refill.after :=
    { interval.replace isBlank with parted := fun empty => absurd empty nonempty }
  have otherUncut : refill.Uncut Token.isOutright refill.other := by
    intro attempt member outright front isTail split closed some
    by_cases white : HasComment refill.other ∨ attempt.kind ≠ .primitive
    · refine otherInterval.endsBefore (fun isPrimitive _ => ?_) outright
        ((List.mem_tails _ _).mp isTail) closed some
      exact white.resolve_right fun other => other isPrimitive
    · obtain ⟨white, isPrimitive⟩ := not_or.mp white
      exact apart white attempt member (beq_iff_eq.mpr (not_not.mp isPrimitive)) front isTail split
        closed some
  have sound : refill.Sound := ⟨interval, otherInterval.toInterval, uncut, otherUncut⟩
  obtain ⟨items, found, rfl⟩ := parse_eq_ok_iff.mp accepted
  have settles : definitions.settles progressive.emptyToken Token.isOutright true = some true := rfl
  have tandem := sound.lockstep.read_tandem definitions settles
    (fun _ => attempts_definitions) sound.facing_afterBlank
  rw [found] at tandem
  rcases tandem.cases with ⟨missing, -⟩ | ⟨_, _, rest, _, otherItems, otherRest, same, otherFound,
    -, -, twin, ends⟩
  · contradiction
  · obtain ⟨rfl, rfl⟩ := Prod.mk.inj (Option.some.inj same)
    rw [Refill.Facing.eq_nil ends rfl] at otherFound
    have alike := place_alike (definitions_agrees twin)
      (1 + Text.newlines (consumed refill.text (afterBlank refill.text)))
      (1 + Text.newlines (consumed refill.otherText (afterBlank refill.otherText)))
    refine ⟨_, parse_eq_ok_iff.mpr ⟨otherItems, otherFound, rfl⟩, alike, ?_⟩
    intro some white otherWhite
    have exact := Refill.exact_wording ⟨blank_of_no_comment white, some⟩
      ⟨blank_of_no_comment otherWhite, nonempty⟩
    have same := alike.imp fun _ _ alike => alike.eq exact
    exact eq_of_forall₂ id (List.forall₂_map_left_iff.mpr (List.forall₂_map_right_iff.mpr same))

/-- A comment takes the place of the space behind a qualifier. -/
def readonlyRefill : Refill where
  before := "interface A \x7b readonly".toList
  run := [' ']
  other := " /*c*/ ".toList
  after := "attribute long a; \x7d;".toList

/-- No token is cut by the space or by the comment, and the definitions are alike. -/
theorem parse_refill_readonly :
    readonlyRefill.Uncut Token.isOutright readonlyRefill.run ∧
      ∃ otherDocument, Document.parse readonlyRefill.otherText = .ok otherDocument ∧
        List.Forall₂ (Definition.Alike readonlyRefill.wording)
          [.interface
            { name := "A"
              members := [.attribute { name := "a", type := "long", readonly := true }]
              span := some ⟨1, 1⟩ }]
          otherDocument.definitions := by
  have last : readonlyRefill.before.getLast? = some 'y' := by decide
  have interval : PartedInterval readonlyRefill.before readonlyRefill.run readonlyRefill.after :=
    { closed := by decide
      isBlank := ⟨by decide, by decide +kernel⟩
      unspaced := by
        rw [last]
        rintro c ⟨rfl⟩
        decide
      stops := by decide +kernel
      parted := nofun }
  have notJoined : ¬Joins readonlyRefill.before readonlyRefill.after := by
    unfold Joins
    decide
  have uncut := Refill.uncut_of_parted interval fun joined => absurd joined notJoined
  have commented : HasComment readonlyRefill.other := ⟨'/', by decide, by decide⟩
  have isBlank : IsBlank readonlyRefill.other := ⟨by decide, by decide +kernel⟩
  have accepted : Document.parse readonlyRefill.text =
      .ok ⟨[.interface
        { name := "A"
          members := [.attribute { name := "a", type := "long", readonly := true }]
          span := some ⟨1, 1⟩ }]⟩ := by decide +kernel
  obtain ⟨otherDocument, parsed, alike, -⟩ := parse_refill interval.toInterval uncut isBlank
    (by decide) (fun white => absurd commented white) accepted
  exact ⟨uncut, otherDocument, parsed, alike⟩

/-- The comment hides the qualifier. -/
example : Document.parse readonlyRefill.otherText =
    .ok ⟨[.interface
      { name := "A", members := [.attribute { name := "a", type := "long" }]
        span := some ⟨1, 1⟩ }]⟩ := by
  decide +kernel

/-- The name of an attribute is a word that could go on with its type. -/
def longRefill : Refill where
  before := "interface A \x7b attribute long long".toList
  run := [' ']
  other := ['\n']
  after := "long; \x7d;".toList

-- The parse looks for a primitive type at the first of the words alone, where the type ends with
-- the second one. So another white space may stand in front of the name, although the words in
-- front of it and behind it could be joined.
example : Joins longRefill.before longRefill.after ∧
    longRefill.Uncut Token.isOutright longRefill.run ∧
    longRefill.Uncut (· == .primitive) longRefill.other := by
  refine ⟨?_, by decide +kernel, by decide +kernel⟩
  unfold Joins
  decide

end InterfaceAudit.Idl
