import InterfaceAudit.Proofs.Grammar.Extension
import Mathlib.Data.List.Forall2

/-!
Derivations: how the text that an expression takes is made up of the texts of its tokens and rules.
A derivation does not say which alternative is tried first or how often an item is repeated, so a
reading has one but not the other way round.
-/

namespace InterfaceAudit.Grammar

variable {Token : Type} {Rule : Type → Type} {Result Item : Type}

/-- What is known about the texts of tokens, and about the values and texts of rules. -/
structure Meaning (Token : Type) (Rule : Type → Type) where
  token : Token → List Char → Prop
  rule : {Result : Type} → Rule Result → Result → List Char → Prop

/-- A value and a text that are built alike from tokens and rules. -/
def Expression.Derives (meaning : Meaning Token Rule) {Result : Type} :
    Expression Token Rule Result → Result → List Char → Prop
  | .token kind, value, text => value = text ∧ meaning.token kind text
  | .rule name, value, text => meaning.rule name value text
  | .seq first second, value, text =>
    ∃ front back, text = front ++ back ∧ first.Derives meaning value.1 front ∧
      second.Derives meaning value.2 back
  | .map build inner, value, text =>
    ∃ innerValue, value = build innerValue ∧ inner.Derives meaning innerValue text
  | .choice first second, value, text =>
    first.Derives meaning value text ∨ second.Derives meaning value text
  | .optional inner, value, text =>
    (value = none ∧ text = []) ∨
      ∃ innerValue, value = some innerValue ∧ inner.Derives meaning innerValue text
  | .many item, values, text =>
    ∃ parts, List.Forall₂ (item.Derives meaning) values parts ∧ text = parts.flatten
  | .source inner, value, text => value.1 = text ∧ inner.Derives meaning value.2 text

/-- Whatever an expression matches, the token is read last in it. -/
def Expression.EndsWith (last : Token) {Result : Type} : Expression Token Rule Result → Prop
  | .token kind => kind = last
  | .rule _ | .optional _ | .many _ => False
  | .seq _ second => second.EndsWith last
  | .map _ inner => inner.EndsWith last
  | .choice first second => first.EndsWith last ∧ second.EndsWith last
  | .source inner => inner.EndsWith last

/-- The last token of a phrase stands at the end of its text. -/
theorem Expression.EndsWith.derives {meaning : Meaning Token Rule} {last : Token}
    {expression : Expression Token Rule Result} (ends : expression.EndsWith last) {value : Result}
    {text : List Char} (derives : expression.Derives meaning value text) :
    ∃ front back, text = front ++ back ∧ meaning.token last back := by
  induction expression generalizing text with
  | token kind =>
    obtain rfl := ends
    exact ⟨[], text, rfl, derives.2⟩
  | rule name | optional inner | many item => exact False.elim ends
  | seq first second _ inductionHypothesis =>
    obtain ⟨front, behind, rfl, -, secondDerives⟩ := derives
    obtain ⟨middle, back, rfl, known⟩ := inductionHypothesis ends secondDerives
    exact ⟨front ++ middle, back, (List.append_assoc ..).symm, known⟩
  | map build inner inductionHypothesis =>
    obtain ⟨innerValue, -, innerDerives⟩ := derives
    exact inductionHypothesis ends innerDerives
  | source inner inductionHypothesis => exact inductionHypothesis ends derives.2
  | choice first second firstHypothesis secondHypothesis =>
    rcases derives with firstDerives | secondDerives
    · exact firstHypothesis ends.1 firstDerives
    · exact secondHypothesis ends.2 secondDerives

/-- The text in front of the rest is one of the given texts for the value. -/
def Takes (Derived : Result → List Char → Prop) (text : List Char) (value : Result)
    (rest : List Char) : Prop :=
  ∃ taken, text = taken ++ rest ∧ Derived value taken

/-- A repetition takes the texts of its items in a row. -/
theorem takes_readMany {read : List Char → Reading Item} {Derived : Item → List Char → Prop}
    (step : ∀ {text item rest}, read text = some (item, rest) → Takes Derived text item rest)
    (text : List Char) :
    Takes (fun items taken => ∃ parts, List.Forall₂ Derived items parts ∧ taken = parts.flatten)
      text (readMany read text).1 (readMany read text).2 := by
  induction text using readMany.induct read with
  | case1 text item rest found shorter _ _ _ inductionHypothesis =>
    obtain ⟨taken, split, derived⟩ := step found
    obtain ⟨_, restSplit, parts, derivedParts, rfl⟩ := inductionHypothesis
    rw [readMany_of_some found shorter]
    refine ⟨taken ++ parts.flatten, ?_, taken :: parts, .cons derived derivedParts, rfl⟩
    rw [List.append_assoc, ← restSplit]
    exact split
  | case2 text item rest found notShorter =>
    rw [readMany, found]
    simp only [notShorter, if_false]
    exact ⟨[], rfl, [], .nil, rfl⟩
  | case3 text missing =>
    rw [readMany_of_none missing]
    exact ⟨[], rfl, [], .nil, rfl⟩

section Derivations

variable (meaning : Meaning Token Rule)

/-- A run takes a text that derives its value, by induction on the expression. -/
theorem Expression.run_takes {scan : Token → List Char → Option (List Char × List Char)}
    {enter : {Result : Type} → Rule Result → List Char → Reading Result}
    (scanned : ∀ {kind text taken rest}, scan kind text = some (taken, rest) →
      text = taken ++ rest ∧ meaning.token kind taken)
    (entered : ∀ {Result : Type} {rule : Rule Result} {text value rest},
      enter rule text = some (value, rest) → Takes (meaning.rule rule) text value rest)
    (expression : Expression Token Rule Result) {text rest : List Char} {value : Result}
    (found : expression.run scan enter text = some (value, rest)) :
    Takes (expression.Derives meaning) text value rest := by
  induction expression generalizing text rest with
  | token kind =>
    obtain ⟨split, known⟩ := scanned found
    exact ⟨value, split, rfl, known⟩
  | rule name => exact entered found
  | seq first second firstHypothesis secondHypothesis =>
    obtain ⟨middle, firstFound, secondFound⟩ := run_seq_eq_some.mp found
    obtain ⟨front, frontSplit, firstDerives⟩ := firstHypothesis firstFound
    obtain ⟨back, backSplit, secondDerives⟩ := secondHypothesis secondFound
    refine ⟨front ++ back, ?_, front, back, rfl, firstDerives, secondDerives⟩
    rw [List.append_assoc, ← backSplit]
    exact frontSplit
  | map build inner inductionHypothesis =>
    obtain ⟨innerValue, innerFound, rfl⟩ := run_map_eq_some.mp found
    obtain ⟨taken, split, derives⟩ := inductionHypothesis innerFound
    exact ⟨taken, split, innerValue, rfl, derives⟩
  | source inner inductionHypothesis =>
    obtain ⟨innerFound, source⟩ := run_source_eq_some.mp found
    obtain ⟨taken, rfl, derives⟩ := inductionHypothesis innerFound
    exact ⟨taken, rfl, source.symm.trans (consumed_of_append taken rest), derives⟩
  | choice first second firstHypothesis secondHypothesis =>
    rcases run_choice_eq_some.mp found with firstFound | ⟨-, secondFound⟩
    · obtain ⟨taken, split, derives⟩ := firstHypothesis firstFound
      exact ⟨taken, split, .inl derives⟩
    · obtain ⟨taken, split, derives⟩ := secondHypothesis secondFound
      exact ⟨taken, split, .inr derives⟩
  | optional inner inductionHypothesis =>
    rcases run_optional_eq_some.mp found with ⟨-, rfl, rfl⟩ | ⟨innerValue, innerFound, rfl⟩
    · exact ⟨[], rfl, .inl ⟨rfl, rfl⟩⟩
    · obtain ⟨taken, split, derives⟩ := inductionHypothesis innerFound
      exact ⟨taken, split, .inr ⟨innerValue, rfl, derives⟩⟩
  | many item inductionHypothesis =>
    obtain ⟨rfl, rfl⟩ := Prod.mk.inj (Option.some.inj found)
    exact takes_readMany inductionHypothesis text

variable {grammar : Grammar Token Rule}
  (scanned : ∀ {kind text taken rest}, grammar.scan kind text = some (taken, rest) →
    text = taken ++ rest ∧ meaning.token kind taken)
  (bodies : ∀ {Result : Type} (rule : Rule Result) {value : Result} {text : List Char},
    (grammar.body rule).Derives meaning value text → meaning.rule rule value text)

include scanned bodies

/-- The induction is on the text, since a rule is entered only where the text is shorter. -/
theorem enter_takes {Outcome : Type} (rule : Rule Outcome) {text rest : List Char}
    {value : Outcome} (found : grammar.enter rule text = some (value, rest)) :
    Takes (meaning.rule rule) text value rest := by
  rw [enter] at found
  have body : Takes ((grammar.body rule).Derives meaning) text value rest := by
    refine Expression.run_takes meaning scanned ?_ _ found
    intro Inner inner shorter value rest entered
    split at entered
    · next less => exact enter_takes inner entered
    · contradiction
  obtain ⟨taken, split, derives⟩ := body
  exact ⟨taken, split, bodies rule derives⟩
termination_by text.length

/-- What is read is derived. -/
theorem read_takes (expression : Expression Token Rule Result) {text rest : List Char}
    {value : Result} (found : grammar.read expression text = some (value, rest)) :
    Takes (expression.Derives meaning) text value rest :=
  Expression.run_takes meaning scanned (enter_takes meaning scanned bodies _) expression found

end Derivations

end InterfaceAudit.Grammar
