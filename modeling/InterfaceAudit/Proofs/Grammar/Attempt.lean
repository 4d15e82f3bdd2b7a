import InterfaceAudit.Proofs.Grammar.Reading

/-!
Attempts of a reading.
A reading scans a text for tokens in a certain order, and where a token is missing it tries another
alternative. Its attempts are all of these scans, the failed ones included.
-/

namespace InterfaceAudit.Grammar

variable {Token : Type} {Rule : Type → Type} {First Second Result Item : Type}

/-- A scan for a token at the beginning of a text. -/
structure Attempt (Token : Type) where
  kind : Token
  text : List Char
  deriving DecidableEq, Repr

/-- The attempts of a repetition: those of each item, and those of the item that is missing. -/
def attemptsOfMany (read : List Char → Reading Item)
    (attempts : List Char → List (Attempt Token)) (text : List Char) : List (Attempt Token) :=
  attempts text ++
    match read text with
    | some (_, rest) =>
      if rest.length < text.length then attemptsOfMany read attempts rest else []
    | none => []
termination_by text.length

/-- Attempts follow the run: what stands behind a phrase is looked at once the phrase is read, and a
second alternative once the first one has failed. -/
def Expression.attempts (scan : Token → List Char → Option (List Char × List Char))
    (enter : {Result : Type} → Rule Result → List Char → Reading Result)
    (enterAttempts : {Result : Type} → Rule Result → List Char → List (Attempt Token))
    {Result : Type} : Expression Token Rule Result → List Char → List (Attempt Token)
  | .token kind, text => [⟨kind, text⟩]
  | .rule name, text => enterAttempts name text
  | .seq first second, text =>
    first.attempts scan enter enterAttempts text ++
      match first.run scan enter text with
      | some (_, middle) => second.attempts scan enter enterAttempts middle
      | none => []
  | .choice first second, text =>
    first.attempts scan enter enterAttempts text ++
      match first.run scan enter text with
      | some _ => []
      | none => second.attempts scan enter enterAttempts text
  | .map _ inner, text | .optional inner, text | .source inner, text =>
    inner.attempts scan enter enterAttempts text
  | .many item, text =>
    attemptsOfMany (fun text => item.run scan enter text)
      (fun text => item.attempts scan enter enterAttempts text) text

def enterAttempts (grammar : Grammar Token Rule) {Result : Type} (rule : Rule Result)
    (text : List Char) : List (Attempt Token) :=
  (grammar.body rule).attempts grammar.scan
    (fun inner rest => if rest.length < text.length then grammar.enter inner rest else none)
    (fun inner rest => if rest.length < text.length then grammar.enterAttempts inner rest else [])
    text
termination_by text.length

def attempts (grammar : Grammar Token Rule) {Result : Type}
    (expression : Expression Token Rule Result) (text : List Char) : List (Attempt Token) :=
  expression.attempts grammar.scan grammar.enter grammar.enterAttempts text

/-! ### Attempts of composed expressions -/

section Composed

variable (grammar : Grammar Token Rule) {text : List Char} {attempt : Attempt Token}

theorem mem_attempts_token (kind : Token) (text : List Char) :
    ⟨kind, text⟩ ∈ grammar.attempts (.token kind : Expression Token Rule _) text :=
  List.mem_singleton_self _

/-- The first part of a sequence is always tried. -/
theorem mem_attempts_seq_left {first : Expression Token Rule First}
    (second : Expression Token Rule Second) (member : attempt ∈ grammar.attempts first text) :
    attempt ∈ grammar.attempts (.seq first second) text :=
  List.mem_append_left _ member

/-- The second part of a sequence is looked at behind the first one. -/
theorem mem_attempts_seq_right {first : Expression Token Rule First}
    {second : Expression Token Rule Second} {value : First} {middle : List Char}
    (found : grammar.read first text = some (value, middle))
    (member : attempt ∈ grammar.attempts second middle) :
    attempt ∈ grammar.attempts (.seq first second) text := by
  refine List.mem_append_right _ ?_
  have ran : first.run grammar.scan grammar.enter text = some (value, middle) := found
  rw [ran]
  exact member

/-- The first alternative is always tried. -/
theorem mem_attempts_choice_left {first : Expression Token Rule Result}
    (second : Expression Token Rule Result) (member : attempt ∈ grammar.attempts first text) :
    attempt ∈ grammar.attempts (.choice first second) text :=
  List.mem_append_left _ member

/-- The second alternative is tried where the first one is missing. -/
theorem mem_attempts_choice_right {first second : Expression Token Rule Result}
    (missing : grammar.read first text = none)
    (member : attempt ∈ grammar.attempts second text) :
    attempt ∈ grammar.attempts (.choice first second) text := by
  refine List.mem_append_right _ ?_
  have ran : first.run grammar.scan grammar.enter text = none := missing
  rw [ran]
  exact member

/-- A repetition tries at least one item. -/
theorem mem_attempts_many {item : Expression Token Rule Item}
    (member : attempt ∈ grammar.attempts item text) :
    attempt ∈ grammar.attempts (.many item) text := by
  rw [attempts, Expression.attempts, attemptsOfMany]
  exact List.mem_append_left _ member

/-- A repetition goes on behind each of its items. -/
theorem mem_attempts_many_rest {item : Expression Token Rule Item} {value : Item}
    {rest : List Char} (found : grammar.read item text = some (value, rest))
    (shorter : rest.length < text.length)
    (member : attempt ∈ grammar.attempts (.many item) rest) :
    attempt ∈ grammar.attempts (.many item) text := by
  rw [attempts, Expression.attempts, attemptsOfMany]
  refine List.mem_append_right _ ?_
  have ran : item.run grammar.scan grammar.enter text = some (value, rest) := found
  rw [ran]
  dsimp only
  rw [if_pos shorter]
  exact member

end Composed

/-! ### Attempts of rules -/

/-- A repetition makes the same attempts when its items do, wherever it gets. -/
theorem attemptsOfMany_congr {read other : List Char → Reading Item}
    {attempts otherAttempts : List Char → List (Attempt Token)} (text : List Char)
    (same : ∀ near, near = text ∨ near.length < text.length →
      read near = other near ∧ attempts near = otherAttempts near) :
    attemptsOfMany read attempts text = attemptsOfMany other otherAttempts text := by
  induction text using readMany.induct read with
  | case1 text item rest found shorter _ _ _ inductionHypothesis =>
    obtain ⟨sameRead, sameAttempts⟩ := same text (.inl rfl)
    rw [attemptsOfMany, attemptsOfMany, ← sameRead, ← sameAttempts, found]
    simp only [shorter, if_true]
    rw [inductionHypothesis]
    intro near close
    refine same near (.inr ?_)
    rcases close with rfl | less
    · exact shorter
    · exact Nat.lt_trans less shorter
  | case2 text item rest found notShorter =>
    obtain ⟨sameRead, sameAttempts⟩ := same text (.inl rfl)
    rw [attemptsOfMany, attemptsOfMany, ← sameRead, ← sameAttempts, found]
    simp only [notShorter, if_false]
  | case3 text missing =>
    obtain ⟨sameRead, sameAttempts⟩ := same text (.inl rfl)
    rw [attemptsOfMany, attemptsOfMany, ← sameRead, ← sameAttempts, missing]

namespace Progressive

variable {grammar : Grammar Token Rule} (progressive : Progressive grammar)

include progressive

/-- Two ways to enter rules make the same attempts when they agree where the run can enter one. -/
theorem attempts_congr {enter other : {Result : Type} → Rule Result → List Char → Reading Result}
    {enterAttempts otherAttempts : {Result : Type} → Rule Result → List Char → List (Attempt Token)}
    (entered : ∀ {Result : Type} {rule : Rule Result} {text value rest},
      enter rule text = some (value, rest) → rest.length < text.length)
    {length : Nat}
    (same : ∀ {Result : Type} (rule : Rule Result) (text : List Char), text.length < length →
      enter rule text = other rule text ∧ enterAttempts rule text = otherAttempts rule text)
    (expression : Expression Token Rule Result) {text : List Char} (short : text.length ≤ length)
    (start : expression.startsWithRule progressive.emptyToken = true → text.length < length) :
    expression.attempts grammar.scan enter enterAttempts text =
      expression.attempts grammar.scan other otherAttempts text := by
  have sameRun {Inner : Type} (inner : Expression Token Rule Inner) {text : List Char}
      (short : text.length ≤ length)
      (start : inner.startsWithRule progressive.emptyToken = true → text.length < length) :
      inner.run grammar.scan enter text = inner.run grammar.scan other text :=
    progressive.run_congr entered (fun rule text less => (same rule text less).1) inner short start
  induction expression generalizing text with
  | token kind => rfl
  | rule name => exact (same name text (start rfl)).2
  | seq first second firstHypothesis secondHypothesis =>
    have startFirst (starts : first.startsWithRule progressive.emptyToken = true) :
        text.length < length :=
      start (Bool.or_eq_true_iff.mpr (.inl starts))
    have firstRun : first.run grammar.scan enter text = first.run grammar.scan other text :=
      sameRun first short startFirst
    simp only [Expression.attempts]
    rw [firstHypothesis short startFirst, firstRun]
    split
    · next value middle otherFound =>
      have found := firstRun.trans otherFound
      have middleLength := progressive.run_length_le entered first found
      rw [secondHypothesis (Nat.le_trans middleLength short)
        (progressive.run_length_lt_of_startsWithRule entered first second short start found)]
    · rfl
  | choice first second firstHypothesis secondHypothesis =>
    have startFirst (starts : first.startsWithRule progressive.emptyToken = true) :
        text.length < length :=
      start (Bool.or_eq_true_iff.mpr (.inl starts))
    have firstRun : first.run grammar.scan enter text = first.run grammar.scan other text :=
      sameRun first short startFirst
    simp only [Expression.attempts]
    rw [firstHypothesis short startFirst, firstRun,
      secondHypothesis short fun starts => start (Bool.or_eq_true_iff.mpr (.inr starts))]
  | map build inner inductionHypothesis | optional inner inductionHypothesis
  | source inner inductionHypothesis =>
    exact inductionHypothesis short start
  | many item inductionHypothesis =>
    refine attemptsOfMany_congr text fun near close => ?_
    have nearShort : near.length ≤ length := by
      rcases close with rfl | less <;> omega
    have nearStart (starts : item.startsWithRule progressive.emptyToken = true) :
        near.length < length := by
      have less := start starts
      rcases close with rfl | shorter <;> omega
    exact ⟨sameRun item nearShort nearStart, inductionHypothesis nearShort nearStart⟩

/-- A rule makes the attempts of its body. -/
theorem attempts_rule (rule : Rule Result) (text : List Char) :
    grammar.attempts (.rule rule) text = grammar.attempts (grammar.body rule) text := by
  change grammar.enterAttempts rule text = _
  rw [enterAttempts]
  refine progressive.attempts_congr ?_ (fun inner shorter less => ⟨if_pos less, if_pos less⟩) _
    (Nat.le_refl _) ?_
  · intro Inner inner shorter value rest entered
    split at entered
    · exact progressive.enter_length_lt inner entered
    · contradiction
  · intro starts
    rw [progressive.body_startsWithToken rule] at starts
    contradiction

end Progressive

end InterfaceAudit.Grammar
