import InterfaceAudit.Proofs.Grammar.Reading

/-!
Readings of a text that goes on.
A reading that stays inside a boundary gives the same value on every longer text.
-/

namespace InterfaceAudit.Grammar

variable {Token : Type} {Rule : Type → Type} {Result Item : Type}

/-- The reading of a longer text that leaves the extension as well. -/
def extended (extension : List Char) (reading : Reading Result) : Reading Result :=
  reading.map fun reading => (reading.1, reading.2 ++ extension)

@[simp] theorem extended_none (extension : List Char) :
    extended extension (none : Reading Result) = none := rfl

@[simp] theorem extended_some (extension rest : List Char) (value : Result) :
    extended extension (some (value, rest)) = some (value, rest ++ extension) := rfl

theorem consumed_of_append (taken rest : List Char) : consumed (taken ++ rest) rest = taken := by
  simp only [consumed, List.length_append, Nat.add_sub_cancel, List.take_left']

/-- The text that goes on is no part of what was taken. -/
theorem consumed_append (text rest extension : List Char) :
    consumed (text ++ extension) (rest ++ extension) = consumed text rest := by
  simp only [consumed, List.length_append, Nat.add_sub_add_right]
  exact List.take_append_of_le_length (Nat.sub_le _ _)

/-- Every token is allowed, or it is a closing token with nothing read after it. -/
def Expression.EndsIn (allowed closing : Token → Prop) {Result : Type} :
    Expression Token Rule Result → Prop
  | .token kind => allowed kind ∨ closing kind
  | .rule _ => True
  | .seq first second => first.Within allowed True ∧ second.EndsIn allowed closing
  | .map _ inner => inner.EndsIn allowed closing
  | .choice first second => first.EndsIn allowed closing ∧ second.EndsIn allowed closing
  | .optional inner => inner.EndsIn allowed closing
  | .many item => item.Within allowed True
  | .source inner => inner.EndsIn allowed closing

instance Expression.decidableEndsIn (allowed closing : Token → Prop) [DecidablePred allowed]
    [DecidablePred closing] {Result : Type} :
    (expression : Expression Token Rule Result) → Decidable (expression.EndsIn allowed closing)
  | .token kind => inferInstanceAs (Decidable (allowed kind ∨ closing kind))
  | .rule _ => inferInstanceAs (Decidable True)
  | .seq first second =>
    have := second.decidableEndsIn allowed closing
    inferInstanceAs (Decidable (first.Within allowed True ∧ _))
  | .map _ inner => inner.decidableEndsIn allowed closing
  | .choice first second =>
    have := first.decidableEndsIn allowed closing
    have := second.decidableEndsIn allowed closing
    inferInstanceAs (Decidable (_ ∧ _))
  | .optional inner => inner.decidableEndsIn allowed closing
  | .many item => inferInstanceAs (Decidable (item.Within allowed True))
  | .source inner => inner.decidableEndsIn allowed closing

/-- A phrase whose tokens are all allowed ends in any closing token. -/
theorem Expression.Within.endsIn {allowed : Token → Prop} (closing : Token → Prop)
    {expression : Expression Token Rule Result} (within : expression.Within allowed True) :
    expression.EndsIn allowed closing := by
  induction expression with
  | token kind => exact .inl within
  | rule name => trivial
  | seq first second _ secondHypothesis => exact ⟨within.1, secondHypothesis within.2⟩
  | choice first second firstHypothesis secondHypothesis =>
    exact ⟨firstHypothesis within.1, secondHypothesis within.2⟩
  | map build inner inductionHypothesis | optional inner inductionHypothesis
  | source inner inductionHypothesis => exact inductionHypothesis within
  | many item => exact within

/-- Whatever an expression matches, a closing token is read in it. -/
def Expression.Closes (closing : Token → Prop) {Result : Type} :
    Expression Token Rule Result → Prop
  | .token kind => closing kind
  | .rule _ | .optional _ | .many _ => False
  | .seq first second => first.Closes closing ∨ second.Closes closing
  | .map _ inner => inner.Closes closing
  | .choice first second => first.Closes closing ∧ second.Closes closing
  | .source inner => inner.Closes closing

instance Expression.decidableCloses (closing : Token → Prop) [DecidablePred closing]
    {Result : Type} :
    (expression : Expression Token Rule Result) → Decidable (expression.Closes closing)
  | .token kind => inferInstanceAs (Decidable (closing kind))
  | .rule _ | .optional _ | .many _ => inferInstanceAs (Decidable False)
  | .seq first second =>
    have := first.decidableCloses closing
    have := second.decidableCloses closing
    inferInstanceAs (Decidable (_ ∨ _))
  | .map _ inner => inner.decidableCloses closing
  | .choice first second =>
    have := first.decidableCloses closing
    have := second.decidableCloses closing
    inferInstanceAs (Decidable (_ ∧ _))
  | .source inner => inner.decidableCloses closing

/-- Inside the boundary no token looks past the end of the text.
An allowed token neither enters nor leaves the boundary, and a closing token stands inside. -/
structure Boundary (grammar : Grammar Token Rule) where
  inside : List Char → Prop
  allowed : Token → Prop
  closing : Token → Prop
  bodies : ∀ {Result : Type} (rule : Rule Result), (grammar.body rule).Within allowed True
  inside_iff : ∀ {kind text taken rest}, allowed kind →
    grammar.scan kind text = some (taken, rest) → (inside text ↔ inside rest)
  inside_of_closing : ∀ {kind text taken rest}, closing kind →
    grammar.scan kind text = some (taken, rest) → inside text
  scan_append : ∀ {kind text} (extension : List Char), allowed kind ∨ closing kind →
    inside text → grammar.scan kind (text ++ extension) =
      extended extension (grammar.scan kind text)

/-- A repetition that ends inside the boundary goes the same way on a longer text. -/
theorem readMany_append {first second : List Char → Reading Item} {inside : List Char → Prop}
    {extension : List Char}
    (settled : ∀ text, inside text →
      (∀ item rest, first text = some (item, rest) → rest.length < text.length → inside rest) →
      second (text ++ extension) = extended extension (first text))
    (back : ∀ {text item rest}, first text = some (item, rest) → inside rest → inside text)
    (text : List Char) (last : inside (readMany first text).2) :
    readMany second (text ++ extension) =
      ((readMany first text).1, (readMany first text).2 ++ extension) := by
  induction text using readMany.induct first with
  | case1 text item rest found shorter _ _ _ inductionHypothesis =>
    rw [readMany_of_some found shorter] at last ⊢
    have insideRest : inside rest :=
      readMany_related (fun text rest => inside rest → inside text) (fun _ => id)
        (fun first second => first ∘ second) back rest last
    have same := settled text (back found insideRest) fun other final otherFound _ => by
      obtain ⟨-, rfl⟩ := Prod.mk.inj (Option.some.inj (found.symm.trans otherFound))
      exact insideRest
    rw [found, extended_some] at same
    have shorterExtended : (rest ++ extension).length < (text ++ extension).length := by
      simpa only [List.length_append] using Nat.add_lt_add_right shorter _
    rw [readMany_of_some same shorterExtended, inductionHypothesis last]
  | case2 text item rest found notShorter =>
    have stopped : readMany first text = ([], text) := by
      rw [readMany, found]
      simp only [notShorter, if_false]
    rw [stopped] at last ⊢
    have same := settled text last fun other final otherFound less => by
      obtain ⟨-, rfl⟩ := Prod.mk.inj (Option.some.inj (found.symm.trans otherFound))
      exact absurd less notShorter
    rw [found, extended_some] at same
    have notShorterExtended : ¬(rest ++ extension).length < (text ++ extension).length := by
      simpa only [List.length_append, Nat.add_lt_add_iff_right] using notShorter
    rw [readMany, same]
    simp only [notShorterExtended, if_false]
  | case3 text missing =>
    rw [readMany_of_none missing] at last ⊢
    have same := settled text last fun other final otherFound _ => by
      rw [missing] at otherFound
      contradiction
    rw [missing, extended_none] at same
    rw [readMany_of_none same]

namespace Boundary

variable {grammar : Grammar Token Rule} (boundary : Boundary grammar)

/-- Allowed tokens keep a text on its side of the boundary. -/
theorem inside_iff_of_read (expression : Expression Token Rule Result)
    (within : expression.Within boundary.allowed True) {text rest : List Char} {value : Result}
    (found : grammar.read expression text = some (value, rest)) :
    boundary.inside text ↔ boundary.inside rest :=
  read_related boundary.allowed (fun text rest => boundary.inside text ↔ boundary.inside rest)
    (fun _ => Iff.rfl) Iff.trans grammar boundary.inside_iff boundary.bodies expression within found

/-- What is read in front of a place inside the boundary begins inside it too. -/
theorem inside_of_read (expression : Expression Token Rule Result)
    (within : expression.Within (fun kind => boundary.allowed kind ∨ boundary.closing kind) True)
    {text rest : List Char} {value : Result}
    (found : grammar.read expression text = some (value, rest)) (last : boundary.inside rest) :
    boundary.inside text := by
  refine read_related (fun kind => boundary.allowed kind ∨ boundary.closing kind)
    (fun text rest => boundary.inside rest → boundary.inside text) (fun _ => id)
    (fun first second => first ∘ second) grammar ?_ ?_ expression within found last
  · intro kind text taken rest known scanned
    rcases known with allowed | closing
    · exact (boundary.inside_iff allowed scanned).mpr
    · exact fun _ => boundary.inside_of_closing closing scanned
  · exact fun rule => (boundary.bodies rule).mono fun _ => .inl

/-- A reading with a closing token in it begins inside the boundary. -/
theorem inside_of_closes (expression : Expression Token Rule Result)
    (closes : expression.Closes boundary.closing)
    (within : expression.Within (fun kind => boundary.allowed kind ∨ boundary.closing kind) True)
    {text rest : List Char} {value : Result}
    (found : grammar.read expression text = some (value, rest)) : boundary.inside text := by
  induction expression generalizing text rest with
  | token kind => exact boundary.inside_of_closing closes found
  | rule | optional | many => contradiction
  | seq first second firstHypothesis secondHypothesis =>
    obtain ⟨middle, firstFound, secondFound⟩ := (read_seq_eq_some grammar text).mp found
    rcases closes with firstCloses | secondCloses
    · exact firstHypothesis firstCloses within.1 firstFound
    · exact boundary.inside_of_read first within.1 firstFound
        (secondHypothesis secondCloses within.2 secondFound)
  | map build inner inductionHypothesis =>
    obtain ⟨innerValue, innerFound, -⟩ := (read_map_eq_some grammar _).mp found
    exact inductionHypothesis closes within innerFound
  | source inner inductionHypothesis =>
    exact inductionHypothesis closes within ((read_source_eq_some grammar _).mp found).1
  | choice first second firstHypothesis secondHypothesis =>
    rcases (read_choice_eq_some grammar _).mp found with firstFound | ⟨-, secondFound⟩
    · exact firstHypothesis closes.1 within.1 firstFound
    · exact secondHypothesis closes.2 within.2 secondFound

/-- Rules are entered in two ways, since a rule is entered only where the text is shorter. -/
theorem run_append (extension : List Char)
    {first second : {Result : Type} → Rule Result → List Char → Reading Result}
    (inside_iff : ∀ {Result : Type} (rule : Rule Result) {text value rest},
      first rule text = some (value, rest) → (boundary.inside text ↔ boundary.inside rest))
    (entered : ∀ {Result : Type} (rule : Rule Result) (text : List Char), boundary.inside text →
      second rule (text ++ extension) = extended extension (first rule text))
    (expression : Expression Token Rule Result)
    (ends : expression.EndsIn boundary.allowed boundary.closing) {text : List Char}
    (start : boundary.inside text) :
    expression.run grammar.scan second (text ++ extension) =
      extended extension (expression.run grammar.scan first text) := by
  have kept {Inner : Type} {inner : Expression Token Rule Inner}
      (within : inner.Within boundary.allowed True) {text rest : List Char} {value : Inner}
      (found : inner.run grammar.scan first text = some (value, rest)) :
      boundary.inside text ↔ boundary.inside rest :=
    Expression.run_related boundary.allowed
      (fun text rest => boundary.inside text ↔ boundary.inside rest) (fun _ => Iff.rfl) Iff.trans
      boundary.inside_iff (fun _ _ rule _ _ _ found => inside_iff rule found) inner within found
  induction expression generalizing text with
  | token kind => exact boundary.scan_append extension ends start
  | rule name => exact entered name text start
  | seq firstPart secondPart firstHypothesis secondHypothesis =>
    simp only [Expression.run]
    rw [firstHypothesis (ends.1.endsIn _) start]
    cases firstFound : firstPart.run grammar.scan first text with
    | none => rfl
    | some reading =>
      obtain ⟨value, middle⟩ := reading
      simp only [extended_some]
      rw [secondHypothesis ends.2 ((kept ends.1 firstFound).mp start)]
      cases secondPart.run grammar.scan first middle <;> rfl
  | map build inner inductionHypothesis =>
    simp only [Expression.run]
    rw [inductionHypothesis ends start]
    cases inner.run grammar.scan first text <;> rfl
  | choice firstPart secondPart firstHypothesis secondHypothesis =>
    simp only [Expression.run]
    rw [firstHypothesis ends.1 start, secondHypothesis ends.2 start]
    cases firstPart.run grammar.scan first text <;> rfl
  | optional inner inductionHypothesis =>
    simp only [Expression.run]
    rw [inductionHypothesis ends start]
    cases inner.run grammar.scan first text <;> rfl
  | many item inductionHypothesis =>
    simp only [Expression.run]
    have last : boundary.inside (readMany (item.run grammar.scan first) text).2 :=
      readMany_related (fun text rest => boundary.inside text → boundary.inside rest)
        (fun _ => id) (fun first second => second ∘ first) (fun found => (kept ends found).mp)
        text start
    rw [readMany_append (fun text start _ => inductionHypothesis (ends.endsIn _) start)
      (fun found => (kept ends found).mpr) text last]
    rfl
  | source inner inductionHypothesis =>
    simp only [Expression.run]
    rw [inductionHypothesis ends start]
    cases inner.run grammar.scan first text with
    | none => rfl
    | some reading =>
      obtain ⟨value, rest⟩ := reading
      simp only [extended_some, consumed_append]

/-- Inside the boundary a rule reads the same on every longer text. -/
theorem enter_append (extension : List Char) {Outcome : Type} (rule : Rule Outcome)
    {text : List Char} (start : boundary.inside text) :
    grammar.enter rule (text ++ extension) = extended extension (grammar.enter rule text) := by
  rw [enter, enter]
  refine boundary.run_append extension ?_ ?_ _ ((boundary.bodies rule).endsIn _) start
  · intro Inner inner shorter value rest entered
    split at entered
    · exact boundary.inside_iff_of_read (.rule inner) trivial entered
    · contradiction
  · intro Inner inner shorter insideShorter
    simp only [List.length_append, Nat.add_lt_add_iff_right]
    split
    · next less => exact enter_append extension inner insideShorter
    · rfl
termination_by text.length

/-- Inside the boundary a phrase reads the same on a longer text. -/
theorem read_append (extension : List Char) (expression : Expression Token Rule Result)
    (ends : expression.EndsIn boundary.allowed boundary.closing) {text : List Char}
    (start : boundary.inside text) :
    grammar.read expression (text ++ extension) =
      extended extension (grammar.read expression text) :=
  boundary.run_append extension
    (fun rule _ _ _ found => boundary.inside_iff_of_read (.rule rule) trivial found)
    (fun rule _ start => boundary.enter_append extension rule start) expression ends start

end Boundary

end InterfaceAudit.Grammar
