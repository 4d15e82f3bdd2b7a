import InterfaceAudit.Grammar.Expression

/-!
Readings of parsing expressions.
Each expression has one equation, and a rule reads as its body does wherever no rule is entered
before a character is taken.
-/

namespace InterfaceAudit.Grammar

variable {Token : Type} {Rule : Type → Type} {First Second Result Item : Type}

/-! ### Runs of composed expressions -/

namespace Expression

section Run

variable {scan : Token → List Char → Option (List Char × List Char)}
  {enter : {Result : Type} → Rule Result → List Char → Reading Result} {text rest : List Char}

/-- A sequence runs when its second part runs where the first part ends. -/
theorem run_seq_eq_some {first : Expression Token Rule First}
    {second : Expression Token Rule Second} {value : First × Second} :
    (seq first second).run scan enter text = some (value, rest) ↔
      ∃ middle, first.run scan enter text = some (value.1, middle) ∧
        second.run scan enter middle = some (value.2, rest) := by
  rw [run]
  constructor
  · intro found
    split at found <;> try contradiction
    next firstValue middle firstFound =>
      split at found <;> try contradiction
      next secondValue last secondFound =>
        obtain ⟨rfl, rfl⟩ := found
        exact ⟨middle, firstFound, secondFound⟩
  · rintro ⟨middle, firstFound, secondFound⟩
    simp only [firstFound, secondFound]

/-- A built value comes from a run of the phrase inside. -/
theorem run_map_eq_some {build : Item → Result} {inner : Expression Token Rule Item}
    {value : Result} :
    (map build inner).run scan enter text = some (value, rest) ↔
      ∃ innerValue, inner.run scan enter text = some (innerValue, rest) ∧
        build innerValue = value := by
  rw [run]
  constructor
  · intro found
    split at found <;> try contradiction
    next innerValue last innerFound =>
      obtain ⟨rfl, rfl⟩ := found
      exact ⟨innerValue, innerFound, rfl⟩
  · rintro ⟨innerValue, innerFound, rfl⟩
    simp only [innerFound]

/-- A choice takes the second alternative only where the first one fails. -/
theorem run_choice_eq_some {first second : Expression Token Rule Result} {value : Result} :
    (choice first second).run scan enter text = some (value, rest) ↔
      first.run scan enter text = some (value, rest) ∨
        first.run scan enter text = none ∧ second.run scan enter text = some (value, rest) := by
  rw [run]
  cases first.run scan enter text <;> simp

/-- An optional phrase that fails leaves the text alone. -/
theorem run_optional_eq_some {inner : Expression Token Rule Result} {value : Option Result} :
    (optional inner).run scan enter text = some (value, rest) ↔
      (inner.run scan enter text = none ∧ value = none ∧ rest = text) ∨
        ∃ innerValue, inner.run scan enter text = some (innerValue, rest) ∧
          value = some innerValue := by
  rw [run]
  constructor
  · intro found
    split at found
    · next innerValue last innerFound =>
      obtain ⟨rfl, rfl⟩ := found
      exact .inr ⟨innerValue, innerFound, rfl⟩
    · next missing =>
      obtain ⟨rfl, rfl⟩ := found
      exact .inl ⟨missing, rfl, rfl⟩
  · rintro (⟨missing, rfl, rfl⟩ | ⟨innerValue, innerFound, rfl⟩)
    · simp only [missing]
    · simp only [innerFound]

/-- The source is what the phrase inside has taken. -/
theorem run_source_eq_some {inner : Expression Token Rule Result} {value : List Char × Result} :
    (source inner).run scan enter text = some (value, rest) ↔
      inner.run scan enter text = some (value.2, rest) ∧ consumed text rest = value.1 := by
  rw [run]
  constructor
  · intro found
    split at found <;> try contradiction
    next innerValue last innerFound =>
      obtain ⟨rfl, rfl⟩ := found
      exact ⟨innerFound, rfl⟩
  · rintro ⟨innerFound, same⟩
    simp only [innerFound, same]

end Run

end Expression

/-! ### Equations -/

section Equations

variable (grammar : Grammar Token Rule) (text : List Char)

@[simp] theorem read_token (kind : Token) :
    grammar.read (.token kind) text = grammar.scan kind text := rfl

/-- A sequence is read part by part. -/
theorem read_seq (first : Expression Token Rule First) (second : Expression Token Rule Second) :
    grammar.read (.seq first second) text =
      (grammar.read first text).bind fun reading =>
        (grammar.read second reading.2).map fun other => ((reading.1, other.1), other.2) := by
  simp only [read, Expression.run]
  split
  · next value middle found =>
    rw [found]
    simp only [Option.bind_some]
    split <;> next other => simp [other]
  · next missing => rw [missing]; rfl

/-- A sequence is read when its second part is read where the first part ends. -/
theorem read_seq_eq_some {first : Expression Token Rule First}
    {second : Expression Token Rule Second} {value : First × Second} {rest : List Char} :
    grammar.read (.seq first second) text = some (value, rest) ↔
      ∃ middle, grammar.read first text = some (value.1, middle) ∧
        grammar.read second middle = some (value.2, rest) :=
  Expression.run_seq_eq_some

@[simp] theorem read_map (build : First → Result) (inner : Expression Token Rule First) :
    grammar.read (.map build inner) text =
      (grammar.read inner text).map fun reading => (build reading.1, reading.2) := by
  simp only [read, Expression.run]
  split <;> next found => simp [found]

/-- A built value comes from a reading of the phrase inside. -/
theorem read_map_eq_some {build : Item → Result} {inner : Expression Token Rule Item}
    {value : Result} {rest : List Char} :
    grammar.read (.map build inner) text = some (value, rest) ↔
      ∃ innerValue, grammar.read inner text = some (innerValue, rest) ∧
        build innerValue = value :=
  Expression.run_map_eq_some

/-- A choice is the first alternative, or else the second one. -/
theorem read_choice (first second : Expression Token Rule Result) :
    grammar.read (.choice first second) text =
      (grammar.read first text).or (grammar.read second text) := by
  simp only [read, Expression.run]
  split <;> next found => simp [found]

/-- A choice takes the second alternative only where the first one is missing. -/
theorem read_choice_eq_some {first second : Expression Token Rule Result} {value : Result}
    {rest : List Char} :
    grammar.read (.choice first second) text = some (value, rest) ↔
      grammar.read first text = some (value, rest) ∨
        grammar.read first text = none ∧ grammar.read second text = some (value, rest) :=
  Expression.run_choice_eq_some

/-- An optional phrase is always read, if only as nothing. -/
theorem read_optional (inner : Expression Token Rule First) :
    grammar.read (.optional inner) text =
      some (match grammar.read inner text with
        | some (value, rest) => (some value, rest)
        | none => (none, text)) := by
  change (match grammar.read inner text with
    | some (value, rest) => some (some value, rest)
    | none => some (none, text)) = _
  cases grammar.read inner text <;> rfl

@[simp] theorem read_many (item : Expression Token Rule Item) :
    grammar.read (.many item) text = some (readMany (grammar.read item) text) := rfl

/-- The source of a phrase is read with its value. -/
@[simp] theorem read_source (inner : Expression Token Rule First) :
    grammar.read (.source inner) text =
      (grammar.read inner text).map fun reading =>
        ((consumed text reading.2, reading.1), reading.2) := by
  simp only [read, Expression.run]
  split <;> next found => simp [found]

/-- The source is what the phrase inside has taken. -/
theorem read_source_eq_some {inner : Expression Token Rule Result} {value : List Char × Result}
    {rest : List Char} :
    grammar.read (.source inner) text = some (value, rest) ↔
      grammar.read inner text = some (value.2, rest) ∧ consumed text rest = value.1 :=
  Expression.run_source_eq_some

end Equations

/-! ### Repetition -/

theorem readMany_of_none {read : List Char → Reading Item} {text : List Char}
    (missing : read text = none) : readMany read text = ([], text) := by
  rw [readMany, missing]

/-- An item that shortens the text is followed by the other items. -/
theorem readMany_of_some {read : List Char → Reading Item} {text rest : List Char} {item : Item}
    (found : read text = some (item, rest)) (shorter : rest.length < text.length) :
    readMany read text = (item :: (readMany read rest).1, (readMany read rest).2) := by
  rw [readMany, found]
  simp only [shorter, if_true]

/-- A repetition keeps every reflexive and transitive relation that its item keeps. -/
theorem readMany_related {read : List Char → Reading Item} (Related : List Char → List Char → Prop)
    (reflexive : ∀ text, Related text text)
    (transitive : ∀ {first second third}, Related first second → Related second third →
      Related first third)
    (step : ∀ {text item rest}, read text = some (item, rest) → Related text rest)
    (text : List Char) : Related text (readMany read text).2 := by
  induction text using readMany.induct read with
  | case1 text item rest found shorter _ _ _ inductionHypothesis =>
    rw [readMany_of_some found shorter]
    exact transitive (step found) inductionHypothesis
  | case2 text item rest found notShorter =>
    rw [readMany, found]
    simp only [notShorter, if_false]
    exact reflexive text
  | case3 text missing =>
    rw [readMany_of_none missing]
    exact reflexive text

/-- Repetitions agree when their items do, wherever they get. -/
theorem readMany_congr {first second : List Char → Reading Item} (text : List Char)
    (same : ∀ other, other = text ∨ other.length < text.length → first other = second other) :
    readMany first text = readMany second text := by
  induction text using readMany.induct first with
  | case1 text item rest found shorter _ _ _ inductionHypothesis =>
    have foundSecond := (same text (.inl rfl)).symm.trans found
    rw [readMany_of_some found shorter, readMany_of_some foundSecond shorter,
      inductionHypothesis]
    intro other near
    refine same other (.inr ?_)
    rcases near with rfl | less
    · exact shorter
    · exact Nat.lt_trans less shorter
  | case2 text item rest found notShorter =>
    rw [readMany, readMany, ← same text (.inl rfl), found]
    simp only [notShorter, if_false]
  | case3 text missing =>
    rw [readMany_of_none missing, readMany_of_none ((same text (.inl rfl)).symm.trans missing)]

/-! ### Relations that readings keep -/

/-- Every token of an expression is allowed, and so are its rules if it has any. -/
def Expression.Within (allowed : Token → Prop) (rules : Prop) {Result : Type} :
    Expression Token Rule Result → Prop
  | .token kind => allowed kind
  | .rule _ => rules
  | .seq first second => first.Within allowed rules ∧ second.Within allowed rules
  | .map _ inner => inner.Within allowed rules
  | .choice first second => first.Within allowed rules ∧ second.Within allowed rules
  | .optional inner => inner.Within allowed rules
  | .many item => item.Within allowed rules
  | .source inner => inner.Within allowed rules

instance Expression.decidableWithin (allowed : Token → Prop) [DecidablePred allowed] (rules : Prop)
    [Decidable rules] {Result : Type} :
    (expression : Expression Token Rule Result) → Decidable (expression.Within allowed rules)
  | .token kind => inferInstanceAs (Decidable (allowed kind))
  | .rule _ => inferInstanceAs (Decidable rules)
  | .seq first second =>
    have := first.decidableWithin allowed rules
    have := second.decidableWithin allowed rules
    inferInstanceAs (Decidable (_ ∧ _))
  | .map _ inner => inner.decidableWithin allowed rules
  | .choice first second =>
    have := first.decidableWithin allowed rules
    have := second.decidableWithin allowed rules
    inferInstanceAs (Decidable (_ ∧ _))
  | .optional inner => inner.decidableWithin allowed rules
  | .many item => item.decidableWithin allowed rules
  | .source inner => inner.decidableWithin allowed rules

/-- An expression is within all tokens. -/
theorem Expression.within_of_forall {allowed : Token → Prop} (all : ∀ kind, allowed kind)
    (expression : Expression Token Rule Result) : expression.Within allowed True := by
  induction expression with
  | token kind => exact all kind
  | rule name => trivial
  | seq first second firstHypothesis secondHypothesis
  | choice first second firstHypothesis secondHypothesis =>
    exact ⟨firstHypothesis, secondHypothesis⟩
  | map build inner inductionHypothesis => exact inductionHypothesis
  | optional inner inductionHypothesis | many inner inductionHypothesis
  | source inner inductionHypothesis => exact inductionHypothesis

/-- An expression stays within more tokens. -/
theorem Expression.Within.mono {allowed other : Token → Prop} {rules : Prop}
    (weaker : ∀ kind, allowed kind → other kind) {expression : Expression Token Rule Result}
    (within : expression.Within allowed rules) : expression.Within other rules := by
  induction expression with
  | token kind => exact weaker kind within
  | rule name => exact within
  | seq first second firstHypothesis secondHypothesis
  | choice first second firstHypothesis secondHypothesis =>
    exact ⟨firstHypothesis within.1, secondHypothesis within.2⟩
  | map build inner inductionHypothesis | optional inner inductionHypothesis
  | many inner inductionHypothesis | source inner inductionHypothesis =>
    exact inductionHypothesis within

section Related

variable (allowed : Token → Prop) (Related : List Char → List Char → Prop)
  (reflexive : ∀ text, Related text text)
  (transitive : ∀ {first second third}, Related first second → Related second third →
    Related first third)

include reflexive transitive

/-- A run keeps every reflexive and transitive relation that its tokens and rules keep. -/
theorem Expression.run_related {scan : Token → List Char → Option (List Char × List Char)}
    {enter : {Result : Type} → Rule Result → List Char → Reading Result} {rules : Prop}
    (scanned : ∀ {kind text taken rest}, allowed kind → scan kind text = some (taken, rest) →
      Related text rest)
    (entered : rules → ∀ {Result : Type} {rule : Rule Result} {text value rest},
      enter rule text = some (value, rest) → Related text rest)
    (expression : Expression Token Rule Result) (within : expression.Within allowed rules)
    {text rest : List Char} {value : Result}
    (found : expression.run scan enter text = some (value, rest)) : Related text rest := by
  induction expression generalizing text rest with
  | token kind => exact scanned within found
  | rule name => exact entered within found
  | seq first second firstHypothesis secondHypothesis =>
    obtain ⟨middle, firstFound, secondFound⟩ := run_seq_eq_some.mp found
    exact transitive (firstHypothesis within.1 firstFound)
      (secondHypothesis within.2 secondFound)
  | map build inner inductionHypothesis =>
    obtain ⟨innerValue, innerFound, -⟩ := run_map_eq_some.mp found
    exact inductionHypothesis within innerFound
  | source inner inductionHypothesis =>
    exact inductionHypothesis within (run_source_eq_some.mp found).1
  | choice first second firstHypothesis secondHypothesis =>
    rcases run_choice_eq_some.mp found with firstFound | ⟨-, secondFound⟩
    · exact firstHypothesis within.1 firstFound
    · exact secondHypothesis within.2 secondFound
  | optional inner inductionHypothesis =>
    rcases run_optional_eq_some.mp found with ⟨-, -, rfl⟩ | ⟨innerValue, innerFound, -⟩
    · exact reflexive rest
    · exact inductionHypothesis within innerFound
  | many item inductionHypothesis =>
    simp only [run, Option.some.injEq] at found
    obtain rfl := congrArg Prod.snd found
    exact readMany_related Related reflexive transitive (inductionHypothesis within) text

variable (grammar : Grammar Token Rule)
  (scanned : ∀ {kind text taken rest}, allowed kind → grammar.scan kind text = some (taken, rest) →
    Related text rest)

include scanned

/-- A phrase without rules is read by its tokens alone. -/
theorem read_related_of_ruleFree (expression : Expression Token Rule Result)
    (within : expression.Within allowed False) {text rest : List Char} {value : Result}
    (found : grammar.read expression text = some (value, rest)) : Related text rest :=
  Expression.run_related allowed Related reflexive transitive scanned False.elim expression within
    found

variable (bodies : ∀ {Result : Type} (rule : Rule Result), (grammar.body rule).Within allowed True)

include bodies

/-- The induction is on the text, since a rule is entered only where the text is shorter. -/
theorem enter_related {Outcome : Type} (rule : Rule Outcome) {text rest : List Char}
    {value : Outcome}
    (found : grammar.enter rule text = some (value, rest)) : Related text rest := by
  rw [enter] at found
  refine Expression.run_related allowed Related reflexive transitive scanned ?_ _ (bodies rule)
    found
  intro _ Inner inner shorter value rest entered
  split at entered
  · next less => exact enter_related inner entered
  · contradiction
termination_by text.length

/-- A relation that every allowed token keeps is kept by every reading. -/
theorem read_related (expression : Expression Token Rule Result)
    (within : expression.Within allowed True) {text rest : List Char} {value : Result}
    (found : grammar.read expression text = some (value, rest)) : Related text rest :=
  Expression.run_related allowed Related reflexive transitive scanned
    (fun _ => enter_related allowed Related reflexive transitive grammar scanned bodies _)
    expression within found

end Related

/-! ### Progress -/

/-- Whether an expression may match without taking a character. -/
def Expression.mayBeEmpty (emptyToken : Token → Bool) {Result : Type} :
    Expression Token Rule Result → Bool
  | .token kind => emptyToken kind
  | .rule _ => false
  | .seq first second => first.mayBeEmpty emptyToken && second.mayBeEmpty emptyToken
  | .map _ inner => inner.mayBeEmpty emptyToken
  | .choice first second => first.mayBeEmpty emptyToken || second.mayBeEmpty emptyToken
  | .optional _ => true
  | .many _ => true
  | .source inner => inner.mayBeEmpty emptyToken

/-- Whether an expression may enter a rule before it has taken a character. -/
def Expression.startsWithRule (emptyToken : Token → Bool) {Result : Type} :
    Expression Token Rule Result → Bool
  | .token _ => false
  | .rule _ => true
  | .seq first second =>
    first.startsWithRule emptyToken ||
      (first.mayBeEmpty emptyToken && second.startsWithRule emptyToken)
  | .map _ inner => inner.startsWithRule emptyToken
  | .choice first second =>
    first.startsWithRule emptyToken || second.startsWithRule emptyToken
  | .optional inner => inner.startsWithRule emptyToken
  | .many item => item.startsWithRule emptyToken
  | .source inner => inner.startsWithRule emptyToken

/-- In a progressive grammar every rule takes a character, and does so before it enters a rule. -/
structure Progressive (grammar : Grammar Token Rule) where
  emptyToken : Token → Bool
  scan_le : ∀ {kind text taken rest}, grammar.scan kind text = some (taken, rest) →
    rest.length ≤ text.length
  scan_lt : ∀ {kind text taken rest}, emptyToken kind = false →
    grammar.scan kind text = some (taken, rest) → rest.length < text.length
  body_takes : ∀ {Result : Type} (rule : Rule Result),
    (grammar.body rule).mayBeEmpty emptyToken = false
  body_startsWithToken : ∀ {Result : Type} (rule : Rule Result),
    (grammar.body rule).startsWithRule emptyToken = false

namespace Progressive

variable {grammar : Grammar Token Rule} (progressive : Progressive grammar)

section Run

variable {enter : {Result : Type} → Rule Result → List Char → Reading Result}
  (entered : ∀ {Result : Type} {rule : Rule Result} {text value rest},
    enter rule text = some (value, rest) → rest.length < text.length)

include progressive entered

/-- A run never makes the text longer. -/
theorem run_length_le (expression : Expression Token Rule Result) {text rest : List Char}
    {value : Result} (found : expression.run grammar.scan enter text = some (value, rest)) :
    rest.length ≤ text.length :=
  Expression.run_related (fun _ => True) (fun text rest => rest.length ≤ text.length)
    (fun _ => Nat.le_refl _) (fun first second => Nat.le_trans second first)
    (fun _ => progressive.scan_le) (fun _ _ _ _ _ _ found => Nat.le_of_lt (entered found))
    expression (Expression.within_of_forall (fun _ => trivial) _) found

/-- A run of a phrase that may not be empty makes the text shorter. -/
theorem run_length_lt (expression : Expression Token Rule Result)
    (takes : expression.mayBeEmpty progressive.emptyToken = false) {text rest : List Char}
    {value : Result} (found : expression.run grammar.scan enter text = some (value, rest)) :
    rest.length < text.length := by
  induction expression generalizing text rest with
  | token kind => exact progressive.scan_lt takes found
  | rule name => exact entered found
  | seq first second firstHypothesis secondHypothesis =>
    obtain ⟨middle, firstFound, secondFound⟩ := Expression.run_seq_eq_some.mp found
    have firstLength := progressive.run_length_le entered first firstFound
    have secondLength := progressive.run_length_le entered second secondFound
    simp only [Expression.mayBeEmpty, Bool.and_eq_false_iff] at takes
    rcases takes with firstTakes | secondTakes
    · exact Nat.lt_of_le_of_lt secondLength (firstHypothesis firstTakes firstFound)
    · exact Nat.lt_of_lt_of_le (secondHypothesis secondTakes secondFound) firstLength
  | map build inner inductionHypothesis =>
    obtain ⟨innerValue, innerFound, -⟩ := Expression.run_map_eq_some.mp found
    exact inductionHypothesis takes innerFound
  | source inner inductionHypothesis =>
    exact inductionHypothesis takes (Expression.run_source_eq_some.mp found).1
  | choice first second firstHypothesis secondHypothesis =>
    simp only [Expression.mayBeEmpty, Bool.or_eq_false_iff] at takes
    rcases Expression.run_choice_eq_some.mp found with firstFound | ⟨-, secondFound⟩
    · exact firstHypothesis takes.1 firstFound
    · exact secondHypothesis takes.2 secondFound
  | optional inner | many item => contradiction

/-- Behind the first part of a sequence the text is shorter wherever the second part may enter a
rule, if it is wherever the sequence may. -/
theorem run_length_lt_of_startsWithRule (first : Expression Token Rule First)
    (second : Expression Token Rule Second) {length : Nat} {text middle : List Char} {value : First}
    (short : text.length ≤ length)
    (start : (Expression.seq first second).startsWithRule progressive.emptyToken = true →
      text.length < length)
    (found : first.run grammar.scan enter text = some (value, middle))
    (starts : second.startsWithRule progressive.emptyToken = true) : middle.length < length := by
  simp only [Expression.startsWithRule, Bool.or_eq_true, Bool.and_eq_true] at start
  by_cases empty : first.mayBeEmpty progressive.emptyToken = true
  · have middleLength := progressive.run_length_le entered first found
    exact Nat.lt_of_le_of_lt middleLength (start (.inr ⟨empty, starts⟩))
  · have takes := eq_false_of_ne_true empty
    exact Nat.lt_of_lt_of_le (progressive.run_length_lt entered first takes found) short

/-- Two ways to enter rules give the same run when they agree where the run can enter one. -/
theorem run_congr {other : {Result : Type} → Rule Result → List Char → Reading Result}
    {length : Nat}
    (same : ∀ {Result : Type} (rule : Rule Result) (text : List Char), text.length < length →
      enter rule text = other rule text)
    (expression : Expression Token Rule Result) {text : List Char} (short : text.length ≤ length)
    (start : expression.startsWithRule progressive.emptyToken = true → text.length < length) :
    expression.run grammar.scan enter text = expression.run grammar.scan other text := by
  induction expression generalizing text with
  | token kind => rfl
  | rule name => exact same name text (start rfl)
  | seq first second firstHypothesis secondHypothesis =>
    have firstSame := firstHypothesis short fun starts =>
      start (Bool.or_eq_true_iff.mpr (.inl starts))
    simp only [Expression.run]
    rw [← firstSame]
    split
    · next value middle firstFound =>
      have middleLength := progressive.run_length_le entered first firstFound
      rw [secondHypothesis (Nat.le_trans middleLength short)
        (progressive.run_length_lt_of_startsWithRule entered first second short start firstFound)]
    · rfl
  | map build inner inductionHypothesis | source inner inductionHypothesis
  | optional inner inductionHypothesis =>
    simp only [Expression.run]
    rw [inductionHypothesis short start]
  | choice first second firstHypothesis secondHypothesis =>
    simp only [Expression.startsWithRule, Bool.or_eq_true] at start
    simp only [Expression.run]
    rw [firstHypothesis short (fun starts => start (.inl starts)),
      secondHypothesis short (fun starts => start (.inr starts))]
  | many item inductionHypothesis =>
    simp only [Expression.run]
    congr 1
    refine readMany_congr text fun near close => ?_
    rcases close with rfl | less
    · exact inductionHypothesis short start
    · exact inductionHypothesis (by omega) (fun _ => by omega)

end Run

include progressive

/-- Every rule makes the text shorter. -/
theorem enter_length_lt {Outcome : Type} (rule : Rule Outcome) {text rest : List Char}
    {value : Outcome} (found : grammar.enter rule text = some (value, rest)) :
    rest.length < text.length := by
  rw [enter] at found
  refine progressive.run_length_lt ?_ _ (progressive.body_takes rule) found
  intro Inner inner shorter value rest entered
  split at entered
  · next less => exact enter_length_lt inner entered
  · contradiction
termination_by text.length

/-- A reading never makes the text longer. -/
theorem read_length_le (expression : Expression Token Rule Result) {text rest : List Char}
    {value : Result} (found : grammar.read expression text = some (value, rest)) :
    rest.length ≤ text.length :=
  progressive.run_length_le (progressive.enter_length_lt _) expression found

/-- A reading of a phrase that may not be empty makes the text shorter. -/
theorem read_length_lt (expression : Expression Token Rule Result)
    (takes : expression.mayBeEmpty progressive.emptyToken = false) {text rest : List Char}
    {value : Result} (found : grammar.read expression text = some (value, rest)) :
    rest.length < text.length :=
  progressive.run_length_lt (progressive.enter_length_lt _) expression takes found

/-- A rule in second place is entered on a shorter text. -/
theorem read_length_lt_of_startsWithRule (first : Expression Token Rule First)
    (second : Expression Token Rule Second) {length : Nat} {text middle : List Char} {value : First}
    (short : text.length ≤ length)
    (start : (Expression.seq first second).startsWithRule progressive.emptyToken = true →
      text.length < length)
    (found : grammar.read first text = some (value, middle))
    (starts : second.startsWithRule progressive.emptyToken = true) : middle.length < length :=
  progressive.run_length_lt_of_startsWithRule (progressive.enter_length_lt _) first second short
    start found starts

/-- A rule reads as its body does. -/
theorem read_rule (rule : Rule Result) (text : List Char) :
    grammar.read (.rule rule) text = grammar.read (grammar.body rule) text := by
  change grammar.enter rule text = _
  rw [enter]
  refine progressive.run_congr ?_ (fun inner shorter less => if_pos less) _ (Nat.le_refl _) ?_
  · intro Inner inner shorter value rest entered
    split at entered
    · exact progressive.enter_length_lt inner entered
    · contradiction
  · intro starts
    rw [progressive.body_startsWithToken rule] at starts
    contradiction

end Progressive

end InterfaceAudit.Grammar
