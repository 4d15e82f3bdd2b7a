import InterfaceAudit.Proofs.Grammar.Attempt
import InterfaceAudit.Proofs.Grammar.Extension

/-!
Readings in lockstep.
Two texts that differ in their blanks are read side by side: wherever one reading takes a token, the
other one takes a token of the same kind, and their values are built in the same way.
-/

namespace InterfaceAudit.Grammar

variable {Token : Type} {Rule : Type → Type} {First Second Result Item : Type}

/-! ### Twins -/

/-- A reading as a pair of the text that it took and of its value. -/
abbrev Taken (Result : Type) := List Char × Result

/-- Two repetitions with items that are related one by one. -/
inductive Twins (Related : Taken Item → Taken Item → Prop) :
    Taken (List Item) → Taken (List Item) → Prop
  | nil : Twins Related ([], []) ([], [])
  | cons {first other : List Char} {item otherItem : Item} {one another : Taken (List Item)}
      (head : Related (first, item) (other, otherItem)) (tail : Twins Related one another) :
      Twins Related (first ++ one.1, item :: one.2) (other ++ another.1, otherItem :: another.2)

/-- What has to hold between the tokens, between the rules and between the sources of two
readings. -/
structure Bond (Token : Type) (Rule : Type → Type) where
  token : Token → List Char → List Char → Prop
  rule : {Result : Type} → Rule Result → Taken Result → Taken Result → Prop
  source : List Char → List Char → Prop

/-- Two readings of an expression that are built alike from tokens and rules in a bond. -/
def Expression.Twin (bond : Bond Token Rule) {Result : Type} :
    Expression Token Rule Result → Taken Result → Taken Result → Prop
  | .token kind, one, other => bond.token kind one.1 other.1 ∧ one.2 = one.1 ∧ other.2 = other.1
  | .rule name, one, other => bond.rule name one other
  | .seq first second, one, other =>
    ∃ front back otherFront otherBack,
      one.1 = front ++ back ∧ other.1 = otherFront ++ otherBack ∧
        first.Twin bond (front, one.2.1) (otherFront, other.2.1) ∧
        second.Twin bond (back, one.2.2) (otherBack, other.2.2)
  | .map build inner, one, other =>
    ∃ value otherValue, inner.Twin bond (one.1, value) (other.1, otherValue) ∧
      one.2 = build value ∧ other.2 = build otherValue
  | .choice first second, one, other => first.Twin bond one other ∨ second.Twin bond one other
  | .optional inner, one, other =>
    one = ([], none) ∧ other = ([], none) ∨
      ∃ value otherValue, one.2 = some value ∧ other.2 = some otherValue ∧
        inner.Twin bond (one.1, value) (other.1, otherValue)
  | .many item, one, other => Twins (item.Twin bond) one other
  | .source inner, one, other =>
    bond.source one.1 other.1 ∧ one.2.1 = one.1 ∧ other.2.1 = other.1 ∧
      inner.Twin bond (one.1, one.2.2) (other.1, other.2.2)

/-- Without rules twins take the same text if their tokens do. -/
theorem Expression.Twin.text_eq {bond : Bond Token Rule} {allowed : Token → Prop}
    (same : ∀ {kind text other}, allowed kind → bond.token kind text other → text = other)
    {expression : Expression Token Rule Result} {one other : Taken Result}
    (within : expression.Within allowed False) (twin : expression.Twin bond one other) :
    one.1 = other.1 := by
  induction expression with
  | token kind => exact same within twin.1
  | rule name => exact within.elim
  | seq first second firstHypothesis secondHypothesis =>
    obtain ⟨front, back, otherFront, otherBack, text, otherText, firstTwin, secondTwin⟩ := twin
    have fronts : front = otherFront := firstHypothesis within.1 firstTwin
    have backs : back = otherBack := secondHypothesis within.2 secondTwin
    rw [text, otherText, fronts, backs]
  | map build inner inductionHypothesis =>
    obtain ⟨value, otherValue, innerTwin, -, -⟩ := twin
    exact inductionHypothesis within innerTwin
  | choice first second firstHypothesis secondHypothesis =>
    exact twin.elim (firstHypothesis within.1) (secondHypothesis within.2)
  | optional inner inductionHypothesis =>
    rcases twin with ⟨rfl, rfl⟩ | ⟨value, otherValue, -, -, innerTwin⟩
    · rfl
    · exact inductionHypothesis within innerTwin
  | many item inductionHypothesis =>
    have all {one other : Taken (List _)} (twins : Twins (item.Twin bond) one other) :
        one.1 = other.1 := by
      induction twins with
      | nil => rfl
      | cons head tail tailHypothesis =>
        have heads := inductionHypothesis within head
        dsimp only at heads ⊢
        rw [heads, tailHypothesis]
    exact all twin
  | source inner inductionHypothesis => exact inductionHypothesis within twin.2.2.2

/-! ### Readings side by side -/

/-- Both readings fail, or both take something and leave rests that are related again. -/
def Tandem (Facing : List Char → List Char → Prop) (Related : Taken Result → Taken Result → Prop)
    (text other : List Char) : Reading Result → Reading Result → Prop
  | none, none => True
  | some (value, rest), some (otherValue, otherRest) =>
    ∃ taken otherTaken, text = taken ++ rest ∧ other = otherTaken ++ otherRest ∧
      Related (taken, value) (otherTaken, otherValue) ∧ Facing rest otherRest
  | _, _ => False

namespace Tandem

variable {Facing : List Char → List Char → Prop} {Related : Taken Result → Taken Result → Prop}
  {text other : List Char} {reading otherReading : Reading Result}

/-- Readings in tandem both fail, or both take a text and go on facing each other. -/
theorem cases (tandem : Tandem Facing Related text other reading otherReading) :
    (reading = none ∧ otherReading = none) ∨
      ∃ taken value rest otherTaken otherValue otherRest,
        reading = some (value, rest) ∧ otherReading = some (otherValue, otherRest) ∧
        text = taken ++ rest ∧ other = otherTaken ++ otherRest ∧
        Related (taken, value) (otherTaken, otherValue) ∧ Facing rest otherRest := by
  match reading, otherReading, tandem with
  | none, none, _ => exact .inl ⟨rfl, rfl⟩
  | some (value, rest), some (otherValue, otherRest), tandem =>
    obtain ⟨taken, otherTaken, text, other, related, facing⟩ := tandem
    exact .inr ⟨taken, value, rest, otherTaken, otherValue, otherRest, rfl, rfl, text, other,
      related, facing⟩

/-- What is made of two readings depends on their values and on what they took. -/
theorem map {Other : Type} {OtherRelated : Taken Other → Taken Other → Prop}
    (tandem : Tandem Facing Related text other reading otherReading)
    (build otherBuild : Result → List Char → Other)
    (related : ∀ {taken value rest otherTaken otherValue otherRest}, text = taken ++ rest →
      other = otherTaken ++ otherRest → Facing rest otherRest →
        Related (taken, value) (otherTaken, otherValue) →
          OtherRelated (taken, build value rest) (otherTaken, otherBuild otherValue otherRest)) :
    Tandem Facing OtherRelated text other
      (reading.map fun found => (build found.1 found.2, found.2))
      (otherReading.map fun found => (otherBuild found.1 found.2, found.2)) := by
  match reading, otherReading, tandem with
  | none, none, _ => trivial
  | some _, some _, ⟨taken, otherTaken, split, otherSplit, isRelated, facing⟩ =>
    exact ⟨taken, otherTaken, split, otherSplit, related split otherSplit facing isRelated, facing⟩

/-- Weaker relations hold of the same readings. -/
theorem imp {OtherFacing : List Char → List Char → Prop}
    {OtherRelated : Taken Result → Taken Result → Prop}
    (tandem : Tandem Facing Related text other reading otherReading)
    (facing : ∀ {rest otherRest}, Facing rest otherRest → OtherFacing rest otherRest)
    (related : ∀ {one another}, Related one another → OtherRelated one another) :
    Tandem OtherFacing OtherRelated text other reading otherReading := by
  match reading, otherReading, tandem with
  | none, none, _ => trivial
  | some _, some _, ⟨taken, otherTaken, text, other, isRelated, isFacing⟩ =>
    exact ⟨taken, otherTaken, text, other, related isRelated, facing isFacing⟩

section Built

variable {grammar : Grammar Token Rule} {bond : Bond Token Rule}

/-- A sequence is read in tandem if its second part is, wherever the readings of the first stop. -/
theorem seq {Middle : List Char → List Char → Prop} {first : Expression Token Rule First}
    {second : Expression Token Rule Second}
    (firstTandem : Tandem Middle (first.Twin bond) text other (grammar.read first text)
      (grammar.read first other))
    (secondTandem : ∀ {value middle otherMiddle}, grammar.read first text = some (value, middle) →
      Middle middle otherMiddle →
        Tandem Facing (second.Twin bond) middle otherMiddle (grammar.read second middle)
          (grammar.read second otherMiddle)) :
    Tandem Facing ((Expression.seq first second).Twin bond) text other
      (grammar.read (.seq first second) text) (grammar.read (.seq first second) other) := by
  rw [read_seq, read_seq]
  rcases firstTandem.cases with ⟨missing, otherMissing⟩ | ⟨taken, value, middle, otherTaken,
    otherValue, otherMiddle, found, otherFound, split, otherSplit, related, middleFacing⟩
  · rw [missing, otherMissing]
    trivial
  · rw [found, otherFound, Option.bind_some, Option.bind_some]
    rcases (secondTandem found middleFacing).cases with ⟨missing, otherMissing⟩ | ⟨next, nextValue,
      rest, otherNext, otherNextValue, otherRest, nextFound, otherNextFound, nextSplit,
      otherNextSplit, nextRelated, restFacing⟩
    · rw [missing, otherMissing]
      trivial
    · rw [nextFound, otherNextFound]
      refine ⟨taken ++ next, otherTaken ++ otherNext, ?_, ?_, ?_, restFacing⟩
      · rw [split, nextSplit, List.append_assoc]
      · rw [otherSplit, otherNextSplit, List.append_assoc]
      · exact ⟨taken, next, otherTaken, otherNext, rfl, rfl, related, nextRelated⟩

/-- The second alternative matters only where the first one is missing. -/
theorem choice {first second : Expression Token Rule Result}
    (firstTandem : Tandem Facing (first.Twin bond) text other (grammar.read first text)
      (grammar.read first other))
    (secondTandem : grammar.read first text = none →
      Tandem Facing (second.Twin bond) text other (grammar.read second text)
        (grammar.read second other)) :
    Tandem Facing ((Expression.choice first second).Twin bond) text other
      (grammar.read (.choice first second) text) (grammar.read (.choice first second) other) := by
  rw [read_choice, read_choice]
  rcases firstTandem.cases with ⟨missing, otherMissing⟩ | ⟨_, _, _, _, _, _, found, otherFound, -⟩
  · rw [missing, otherMissing]
    exact (secondTandem missing).imp id Or.inr
  · rw [found, otherFound] at firstTandem ⊢
    exact firstTandem.imp id Or.inl

/-- Where a phrase is missing in both texts, they face each other as they did before. -/
theorem optional {inner : Expression Token Rule Result}
    (tandem : Tandem Facing (inner.Twin bond) text other (grammar.read inner text)
      (grammar.read inner other)) (facing : Facing text other) :
    Tandem Facing ((Expression.optional inner).Twin bond) text other
      (grammar.read (.optional inner) text) (grammar.read (.optional inner) other) := by
  rw [read_optional, read_optional]
  rcases tandem.cases with ⟨missing, otherMissing⟩ | ⟨taken, value, rest, otherTaken, otherValue,
    otherRest, found, otherFound, split, otherSplit, related, restFacing⟩
  · rw [missing, otherMissing]
    exact ⟨[], [], rfl, rfl, .inl ⟨rfl, rfl⟩, facing⟩
  · rw [found, otherFound]
    exact ⟨taken, otherTaken, split, otherSplit, .inr ⟨value, otherValue, rfl, rfl, related⟩,
      restFacing⟩

end Built

end Tandem

/-! ### Pace -/

/-- Whether a blank stands in front of the place behind an expression, given whether one stands in
front of its own place. An expression is out of pace when it has a token or a source without a
blank before it, or repeats what may be empty. -/
def Expression.settles (empty allowed : Token → Bool) {Result : Type} :
    Bool → Expression Token Rule Result → Option Bool
  | settled, .token kind =>
    if empty kind then some true else if settled && allowed kind then some false else none
  | settled, .rule _ => if settled then some false else none
  | settled, .seq first second =>
    (first.settles empty allowed settled).bind fun middle => second.settles empty allowed middle
  | settled, .map _ inner => inner.settles empty allowed settled
  | settled, .choice first second =>
    (first.settles empty allowed settled).bind fun firstSettled =>
      (second.settles empty allowed settled).map fun secondSettled =>
        firstSettled && secondSettled
  | settled, .optional inner => (inner.settles empty allowed settled).map (settled && ·)
  | settled, .many item =>
    (item.settles empty allowed settled).bind fun itemSettled =>
      if (settled && !itemSettled) || item.mayBeEmpty empty then none else some settled
  | settled, .source inner => if settled then inner.settles empty allowed true else none

/-- Two texts face each other at places that are settled or not. Tokens are scanned in tandem where
the first reading looks for them, what stands between two pairs of places is in a bond, and a bond
between tokens makes one between rules. -/
structure Lockstep (grammar : Grammar Token Rule) where
  progressive : Progressive grammar
  allowed : Token → Bool
  attempted : Attempt Token → Prop
  bond : Bond Token Rule
  Facing : Bool → List Char → List Char → Prop
  unsettle : ∀ {text other}, Facing true text other → Facing false text other
  scan_blank : ∀ {kind text other}, progressive.emptyToken kind = true → Facing false text other →
    Tandem (Facing true) ((.token kind : Expression Token Rule _).Twin bond) text other
      (grammar.scan kind text) (grammar.scan kind other)
  scan_token : ∀ {kind text other}, allowed kind = true → attempted ⟨kind, text⟩ →
    Facing true text other →
      Tandem (Facing false) ((.token kind : Expression Token Rule _).Twin bond) text other
        (grammar.scan kind text) (grammar.scan kind other)
  taken : ∀ {after text other taken otherTaken rest otherRest}, Facing true text other →
    Facing after rest otherRest → text = taken ++ rest → other = otherTaken ++ otherRest →
      bond.source taken otherTaken
  body_settles : ∀ {Result : Type} (rule : Rule Result),
    (grammar.body rule).settles progressive.emptyToken allowed true = some false
  body_bond : ∀ {Result : Type} (rule : Rule Result) {one other : Taken Result},
    (grammar.body rule).Twin bond one other → bond.rule rule one other

namespace Lockstep

variable {grammar : Grammar Token Rule} (lockstep : Lockstep grammar)

include lockstep

theorem weaken {settled after : Bool} (stays : settled = true → after = true)
    {text other : List Char} (facing : lockstep.Facing after text other) :
    lockstep.Facing settled text other := by
  cases settled with
  | true => exact stays rfl ▸ facing
  | false =>
    cases after with
    | true => exact lockstep.unsettle facing
    | false => exact facing

/-- Items that are read in tandem are repeated in tandem, as long as they are due. -/
theorem readMany_tandem {settled : Bool} {Related : Taken Item → Taken Item → Prop}
    {read : List Char → Reading Item} {length : Nat} {Due : List Char → Prop}
    (shortens : ∀ {text item rest}, read text = some (item, rest) → rest.length < text.length)
    (next : ∀ {text item rest}, read text = some (item, rest) → Due text → Due rest)
    (step : ∀ {text other}, text.length ≤ length → Due text → lockstep.Facing settled text other →
      Tandem (lockstep.Facing settled) Related text other (read text) (read other))
    {text other : List Char} (short : text.length ≤ length) (due : Due text)
    (facing : lockstep.Facing settled text other) :
    Tandem (lockstep.Facing settled) (Twins Related) text other
      (some (readMany read text)) (some (readMany read other)) := by
  induction text using readMany.induct read generalizing other with
  | case1 text item rest found shorter _ _ _ inductionHypothesis =>
    have tandem := step short due facing
    rcases tandem.cases with ⟨missing, -⟩ | ⟨taken, value, middle, otherTaken, otherValue,
      otherNext, here, there, split, otherSplit, related, nextFacing⟩
    · rw [found] at missing
      contradiction
    · rw [found] at here
      obtain ⟨rfl, rfl⟩ := Prod.mk.inj (Option.some.inj here)
      obtain ⟨others, otherOthers, restSplit, otherRestSplit, twins, lastFacing⟩ :=
        inductionHypothesis (by omega) (next found due) nextFacing
      rw [readMany_of_some found shorter, readMany_of_some there (shortens there)]
      refine ⟨taken ++ others, otherTaken ++ otherOthers, ?_, ?_, .cons related twins, lastFacing⟩
      · calc text = taken ++ rest := split
          _ = taken ++ (others ++ (readMany read rest).2) := congrArg (taken ++ ·) restSplit
          _ = taken ++ others ++ (readMany read rest).2 := (List.append_assoc ..).symm
      · calc other = otherTaken ++ otherNext := otherSplit
          _ = otherTaken ++ (otherOthers ++ (readMany read otherNext).2) :=
            congrArg (otherTaken ++ ·) otherRestSplit
          _ = otherTaken ++ otherOthers ++ (readMany read otherNext).2 :=
            (List.append_assoc ..).symm
  | case2 text item rest found notShorter => exact absurd (shortens found) notShorter
  | case3 text missing =>
    have tandem := step short due facing
    rcases tandem.cases with ⟨-, otherMissing⟩ | ⟨_, _, _, _, _, _, found, -⟩
    · rw [readMany_of_none missing, readMany_of_none otherMissing]
      exact ⟨[], [], rfl, rfl, .nil, facing⟩
    · rw [missing] at found
      contradiction

/-- A token that may be empty is a blank, and every other token stands behind one. -/
theorem scan_tandem {kind : Token} {settled after : Bool}
    (settles : (.token kind : Expression Token Rule _).settles lockstep.progressive.emptyToken
      lockstep.allowed settled = some after)
    {text other : List Char} (attempted : lockstep.attempted ⟨kind, text⟩)
    (facing : lockstep.Facing settled text other) :
    Tandem (lockstep.Facing after) ((.token kind : Expression Token Rule _).Twin lockstep.bond)
      text other (grammar.scan kind text) (grammar.scan kind other) := by
  rw [Expression.settles] at settles
  by_cases isEmpty : lockstep.progressive.emptyToken kind = true
  · rw [if_pos isEmpty] at settles
    obtain rfl := Option.some.inj settles
    have unsettled : lockstep.Facing false text other :=
      lockstep.weaken (fun settled => absurd settled Bool.false_ne_true) facing
    exact lockstep.scan_blank isEmpty unsettled
  · rw [if_neg isEmpty] at settles
    split at settles
    · next both =>
      obtain ⟨rfl, isAllowed⟩ := Bool.and_eq_true_iff.mp both
      obtain rfl := Option.some.inj settles
      exact lockstep.scan_token isAllowed attempted facing
    · contradiction

/-- What an expression looks for at the beginning of a text is looked for by the whole reading. -/
def Attempted (expression : Expression Token Rule Result) (text : List Char) : Prop :=
  ∀ attempt ∈ grammar.attempts expression text, lockstep.attempted attempt

/-- Rules that are read in tandem where the text is shorter make expressions read in tandem. -/
theorem read_tandem_of_rules {length : Nat}
    (rules : ∀ {Result : Type} (rule : Rule Result) {text other : List Char},
      text.length < length → lockstep.Attempted (.rule rule) text →
        lockstep.Facing true text other →
          Tandem (lockstep.Facing false) (lockstep.bond.rule rule) text other
            (grammar.read (.rule rule) text) (grammar.read (.rule rule) other))
    (expression : Expression Token Rule Result) {settled after : Bool}
    (settles : expression.settles lockstep.progressive.emptyToken lockstep.allowed settled =
      some after)
    {text other : List Char} (short : text.length ≤ length)
    (start : expression.startsWithRule lockstep.progressive.emptyToken = true →
      text.length < length)
    (attempted : lockstep.Attempted expression text)
    (facing : lockstep.Facing settled text other) :
    Tandem (lockstep.Facing after) (expression.Twin lockstep.bond) text other
      (grammar.read expression text) (grammar.read expression other) := by
  induction expression generalizing settled after text other with
  | token kind =>
    exact lockstep.scan_tandem settles (attempted _ (grammar.mem_attempts_token kind text)) facing
  | rule name =>
    rw [Expression.settles] at settles
    split at settles
    · next isSettled =>
      obtain rfl := Option.some.inj settles
      subst isSettled
      exact rules name (start rfl) attempted facing
    · contradiction
  | seq first second firstHypothesis secondHypothesis =>
    obtain ⟨middleSettled, firstSettles, secondSettles⟩ := Option.bind_eq_some_iff.mp settles
    have firstTandem := firstHypothesis firstSettles short
      (fun starts => start (Bool.or_eq_true_iff.mpr (.inl starts)))
      (fun attempt member => attempted attempt (grammar.mem_attempts_seq_left second member)) facing
    refine firstTandem.seq fun {value middle otherMiddle} found middleFacing => ?_
    have middleLength := lockstep.progressive.read_length_le first found
    exact secondHypothesis secondSettles (Nat.le_trans middleLength short)
      (lockstep.progressive.read_length_lt_of_startsWithRule first second short start found)
      (fun attempt member => attempted attempt (grammar.mem_attempts_seq_right found member))
      middleFacing
  | map build inner inductionHypothesis =>
    rw [read_map, read_map]
    have tandem := inductionHypothesis settles short start attempted facing
    refine tandem.map (fun value _ => build value) (fun value _ => build value) ?_
    intro taken value _ otherTaken otherValue _ _ _ _ related
    exact ⟨value, otherValue, related, rfl, rfl⟩
  | source inner inductionHypothesis =>
    rw [Expression.settles] at settles
    split at settles
    · next isSettled =>
      subst isSettled
      rw [read_source, read_source]
      have tandem := inductionHypothesis settles short start attempted facing
      refine tandem.map (fun value rest => (consumed text rest, value))
        (fun value rest => (consumed other rest, value)) ?_
      intro taken value rest otherTaken otherValue otherRest split otherSplit restFacing related
      refine ⟨lockstep.taken facing restFacing split otherSplit, ?_, ?_, related⟩
      · rw [split, consumed_of_append]
      · rw [otherSplit, consumed_of_append]
    · contradiction
  | choice first second firstHypothesis secondHypothesis =>
    obtain ⟨firstSettled, firstSettles, settles⟩ := Option.bind_eq_some_iff.mp settles
    obtain ⟨secondSettled, secondSettles, rfl⟩ := Option.map_eq_some_iff.mp settles
    have firstTandem := firstHypothesis firstSettles short
      (fun starts => start (Bool.or_eq_true_iff.mpr (.inl starts)))
      (fun attempt member => attempted attempt (grammar.mem_attempts_choice_left second member))
      facing
    refine .choice
      (firstTandem.imp (lockstep.weaken fun both => (Bool.and_eq_true_iff.mp both).1) id)
      fun missing => ?_
    have secondTandem := secondHypothesis secondSettles short
      (fun starts => start (Bool.or_eq_true_iff.mpr (.inr starts)))
      (fun attempt member => attempted attempt (grammar.mem_attempts_choice_right missing member))
      facing
    exact secondTandem.imp (lockstep.weaken fun both => (Bool.and_eq_true_iff.mp both).2) id
  | optional inner inductionHypothesis =>
    obtain ⟨innerSettled, innerSettles, rfl⟩ := Option.map_eq_some_iff.mp settles
    have tandem := inductionHypothesis innerSettles short start attempted facing
    exact .optional
      (tandem.imp (lockstep.weaken fun both => (Bool.and_eq_true_iff.mp both).2) id)
      (lockstep.weaken (fun both => (Bool.and_eq_true_iff.mp both).1) facing)
  | many item inductionHypothesis =>
    obtain ⟨itemSettled, itemSettles, settles⟩ := Option.bind_eq_some_iff.mp settles
    split at settles
    · contradiction
    · next inPace =>
      obtain rfl := Option.some.inj settles
      simp only [Bool.or_eq_true, Bool.and_eq_true, Bool.not_eq_true', not_or, not_and,
        Bool.not_eq_false] at inPace
      obtain ⟨stays, takes⟩ := inPace
      have shortens {text rest : List Char} {value : _}
          (found : grammar.read item text = some (value, rest)) : rest.length < text.length :=
        lockstep.progressive.read_length_lt item (eq_false_of_ne_true takes) found
      rw [read_many, read_many]
      refine lockstep.readMany_tandem shortens (fun found due attempt member => ?_) ?_
        (Nat.le_refl text.length) attempted facing
      · exact due attempt (grammar.mem_attempts_many_rest found (shortens found) member)
      · intro next otherNext nextShort due nextFacing
        have tandem := inductionHypothesis itemSettles (Nat.le_trans nextShort short)
          (fun starts => Nat.lt_of_le_of_lt nextShort (start starts))
          (fun attempt member => due attempt (grammar.mem_attempts_many member)) nextFacing
        exact tandem.imp (lockstep.weaken stays) id

/-- Rules are read in tandem; the induction is on the text, which is shorter wherever a rule is
entered. -/
theorem rule_tandem {Outcome : Type} (rule : Rule Outcome) {text other : List Char}
    (attempted : lockstep.Attempted (.rule rule) text)
    (facing : lockstep.Facing true text other) :
    Tandem (lockstep.Facing false) (lockstep.bond.rule rule) text other
      (grammar.read (.rule rule) text) (grammar.read (.rule rule) other) := by
  rw [Attempted, lockstep.progressive.attempts_rule] at attempted
  rw [lockstep.progressive.read_rule, lockstep.progressive.read_rule]
  have tandem := lockstep.read_tandem_of_rules
    (fun inner _ _ _ innerAttempted innerFacing => rule_tandem inner innerAttempted innerFacing)
    (grammar.body rule)
    (lockstep.body_settles rule) (Nat.le_refl text.length)
    (fun starts => by
      rw [lockstep.progressive.body_startsWithToken rule] at starts
      contradiction) attempted facing
  exact tandem.imp id (lockstep.body_bond rule)
termination_by text.length

/-- Texts that face each other are read in tandem. -/
theorem read_tandem (expression : Expression Token Rule Result) {settled after : Bool}
    (settles : expression.settles lockstep.progressive.emptyToken lockstep.allowed settled =
      some after)
    {text other : List Char} (attempted : lockstep.Attempted expression text)
    (facing : lockstep.Facing settled text other) :
    Tandem (lockstep.Facing after) (expression.Twin lockstep.bond) text other
      (grammar.read expression text) (grammar.read expression other) :=
  lockstep.read_tandem_of_rules
    (fun rule _ _ _ ruleAttempted ruleFacing =>
      lockstep.rule_tandem rule ruleAttempted ruleFacing)
    expression settles (Nat.le_succ text.length) (fun _ => Nat.lt_succ_self text.length) attempted
    facing

end Lockstep

end InterfaceAudit.Grammar
