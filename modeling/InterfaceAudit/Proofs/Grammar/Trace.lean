import InterfaceAudit.Proofs.Grammar.Reading

/-!
Traces of readings.
A trace lists the tokens that a reading takes, and each of them is scanned where the one before it
ends.
-/

namespace InterfaceAudit.Grammar

variable {Token : Type} {Rule : Type → Type} {Result Item : Type}

/-- A token is taken in front of the rest of a text. -/
structure Leaf (Token : Type) where
  kind : Token
  taken : List Char
  rest : List Char
  deriving DecidableEq, Repr

/-- A trace is read as the expression is, with leaves for its value. -/
def Expression.trace {Token : Type} {Rule : Type → Type}
    (scan : Token → List Char → Option (List Char × List Char))
    (enter : {Result : Type} → Rule Result → List Char → Reading (List (Leaf Token)))
    {Result : Type} : Expression Token Rule Result → List Char → Reading (List (Leaf Token))
  | .token kind, text => (scan kind text).map fun (taken, rest) => ([⟨kind, taken, rest⟩], rest)
  | .rule name, text => enter name text
  | .seq first second, text =>
    (first.trace scan enter text).bind fun (leaves, middle) =>
      (second.trace scan enter middle).map fun (others, rest) => (leaves ++ others, rest)
  | .map _ inner, text => inner.trace scan enter text
  | .choice first second, text =>
    (first.trace scan enter text).or (second.trace scan enter text)
  | .optional inner, text => some ((inner.trace scan enter text).getD ([], text))
  | .many item, text =>
    let (leaves, rest) := readMany (fun text => item.trace scan enter text) text
    some (leaves.flatten, rest)
  | .source inner, text => inner.trace scan enter text

def enterTrace (grammar : Grammar Token Rule) {Result : Type} (rule : Rule Result)
    (text : List Char) : Reading (List (Leaf Token)) :=
  (grammar.body rule).trace grammar.scan
    (fun inner rest => if rest.length < text.length then grammar.enterTrace inner rest else none)
    text
termination_by text.length

def trace (grammar : Grammar Token Rule) {Result : Type} (expression : Expression Token Rule Result)
    (text : List Char) : Reading (List (Leaf Token)) :=
  expression.trace grammar.scan grammar.enterTrace text

/-- Leaves tile a text up to a rest when each is scanned where the one before it ends. -/
def Tiles (scan : Token → List Char → Option (List Char × List Char)) :
    List Char → List (Leaf Token) → List Char → Prop
  | text, [], rest => text = rest
  | text, leaf :: leaves, rest =>
    scan leaf.kind text = some (leaf.taken, leaf.rest) ∧ Tiles scan leaf.rest leaves rest

section Tiles

variable {scan : Token → List Char → Option (List Char × List Char)}

/-- Tokens that tile a text up to a place go on with those behind it. -/
theorem Tiles.append {text middle rest : List Char} {leaves others : List (Leaf Token)}
    (tiles : Tiles scan text leaves middle) (otherTiles : Tiles scan middle others rest) :
    Tiles scan text (leaves ++ others) rest := by
  induction leaves generalizing text with
  | nil => exact (show text = middle from tiles) ▸ otherTiles
  | cons leaf leaves inductionHypothesis => exact ⟨tiles.1, inductionHypothesis tiles.2⟩

/-- Each of the tokens is scanned somewhere in the text. -/
theorem Tiles.exists_scan {text rest : List Char} {leaves : List (Leaf Token)}
    (tiles : Tiles scan text leaves rest) {leaf : Leaf Token} (member : leaf ∈ leaves) :
    ∃ start, scan leaf.kind start = some (leaf.taken, leaf.rest) := by
  induction leaves generalizing text with
  | nil => contradiction
  | cons first leaves inductionHypothesis =>
    rcases List.mem_cons.mp member with rfl | later
    · exact ⟨text, tiles.1⟩
    · exact inductionHypothesis tiles.2 later

/-- Leaves of allowed tokens tile the text in front of a rest. -/
def Traces (scan : Token → List Char → Option (List Char × List Char)) (allowed : Token → Prop)
    (text : List Char) (leaves : List (Leaf Token)) (rest : List Char) : Prop :=
  Tiles scan text leaves rest ∧ ∀ leaf ∈ leaves, allowed leaf.kind

/-- A trace and a reading both fail, or both stop at one rest up to which the leaves are traced. -/
def Accompanies (scan : Token → List Char → Option (List Char × List Char))
    (allowed : Token → Prop) (text : List Char) :
    Reading (List (Leaf Token)) → Reading Result → Prop
  | some (leaves, rest), some (_, last) => rest = last ∧ Traces scan allowed text leaves rest
  | none, none => True
  | _, _ => False

variable {allowed : Token → Prop}

theorem Traces.nil (text : List Char) : Traces scan allowed text [] text :=
  ⟨rfl, fun _ member => nomatch member⟩

/-- Traces in a row make up one trace. -/
theorem Traces.append {text middle rest : List Char} {leaves others : List (Leaf Token)}
    (traces : Traces scan allowed text leaves middle)
    (otherTraces : Traces scan allowed middle others rest) :
    Traces scan allowed text (leaves ++ others) rest :=
  ⟨traces.1.append otherTraces.1, List.forall_mem_append.mpr ⟨traces.2, otherTraces.2⟩⟩

/-- A reading and its trace both fail, or both end at the same place. -/
theorem Accompanies.cases {text : List Char} {traced : Reading (List (Leaf Token))}
    {reading : Reading Result} (accompanies : Accompanies scan allowed text traced reading) :
    (traced = none ∧ reading = none) ∨ ∃ leaves value rest, traced = some (leaves, rest) ∧
      reading = some (value, rest) ∧ Traces scan allowed text leaves rest := by
  match traced, reading with
  | some (leaves, rest), some (value, last) =>
    obtain ⟨rfl, traces⟩ := accompanies
    exact .inr ⟨leaves, value, rest, rfl, rfl, traces⟩
  | none, none => exact .inl ⟨rfl, rfl⟩

/-- The trace of a repetition lists the tokens of its items. -/
theorem readMany_accompanies {traced : List Char → Reading (List (Leaf Token))}
    {read : List Char → Reading Item}
    (accompanies : ∀ text, Accompanies scan allowed text (traced text) (read text))
    (text : List Char) :
    (readMany traced text).2 = (readMany read text).2 ∧
      Traces scan allowed text (readMany traced text).1.flatten (readMany read text).2 := by
  induction text using readMany.induct read with
  | case1 text item rest found shorter _ _ _ inductionHypothesis =>
    rcases (accompanies text).cases with ⟨-, missing⟩ | ⟨leaves, value, last, here, there, traces⟩
    · rw [found] at missing
      contradiction
    · obtain ⟨rfl, rfl⟩ := Prod.mk.inj (Option.some.inj (found.symm.trans there))
      rw [readMany_of_some found shorter, readMany_of_some here shorter]
      exact ⟨inductionHypothesis.1, traces.append inductionHypothesis.2⟩
  | case2 text item rest found notShorter =>
    rcases (accompanies text).cases with ⟨-, missing⟩ | ⟨leaves, value, last, here, there, -⟩
    · rw [found] at missing
      contradiction
    · obtain ⟨rfl, rfl⟩ := Prod.mk.inj (Option.some.inj (found.symm.trans there))
      rw [readMany, readMany, found, here]
      simp only [notShorter, if_false]
      exact ⟨trivial, .nil text⟩
  | case3 text missing =>
    rcases (accompanies text).cases with ⟨alsoMissing, -⟩ | ⟨_, _, _, -, found, -⟩
    · rw [readMany_of_none missing, readMany_of_none alsoMissing]
      exact ⟨rfl, .nil text⟩
    · rw [missing] at found
      contradiction

/-- The trace of an expression accompanies its run. -/
theorem Expression.trace_accompanies
    {enterTrace : {Result : Type} → Rule Result → List Char → Reading (List (Leaf Token))}
    {enter : {Result : Type} → Rule Result → List Char → Reading Result}
    (entered : ∀ {Result : Type} (rule : Rule Result) (text : List Char),
      Accompanies scan allowed text (enterTrace rule text) (enter rule text))
    (expression : Expression Token Rule Result) (within : expression.Within allowed True)
    (text : List Char) :
    Accompanies scan allowed text (expression.trace scan enterTrace text)
      (expression.run scan enter text) := by
  induction expression generalizing text with
  | token kind =>
    rw [trace, run]
    cases scanned : scan kind text with
    | none => trivial
    | some reading => exact ⟨rfl, ⟨scanned, rfl⟩, List.forall_mem_singleton.mpr within⟩
  | rule name => exact entered name text
  | seq first second firstHypothesis secondHypothesis =>
    rw [trace, run]
    rcases (firstHypothesis within.1 text).cases with ⟨missing, alsoMissing⟩ |
      ⟨leaves, value, middle, here, there, traces⟩
    · rw [missing, alsoMissing]
      trivial
    · simp only [here, there, Option.bind_some]
      rcases (secondHypothesis within.2 middle).cases with ⟨missing, alsoMissing⟩ |
        ⟨others, otherValue, rest, otherHere, otherThere, otherTraces⟩
      · rw [missing, alsoMissing]
        trivial
      · simp only [otherHere, otherThere, Option.map_some]
        exact ⟨rfl, traces.append otherTraces⟩
  | map build inner inductionHypothesis | source inner inductionHypothesis =>
    rw [trace, run]
    rcases (inductionHypothesis within text).cases with ⟨missing, alsoMissing⟩ |
      ⟨leaves, value, rest, here, there, traces⟩
    · rw [missing, alsoMissing]
      trivial
    · rw [here, there]
      exact ⟨rfl, traces⟩
  | choice first second firstHypothesis secondHypothesis =>
    rw [trace, run]
    rcases (firstHypothesis within.1 text).cases with ⟨missing, alsoMissing⟩ |
      ⟨leaves, value, rest, here, there, traces⟩
    · rw [missing, alsoMissing, Option.none_or]
      exact secondHypothesis within.2 text
    · rw [here, there, Option.some_or]
      exact ⟨rfl, traces⟩
  | optional inner inductionHypothesis =>
    rw [trace, run]
    rcases (inductionHypothesis within text).cases with ⟨missing, alsoMissing⟩ |
      ⟨leaves, value, rest, here, there, traces⟩
    · rw [missing, alsoMissing]
      exact ⟨rfl, .nil text⟩
    · rw [here, there]
      exact ⟨rfl, traces⟩
  | many item inductionHypothesis =>
    obtain ⟨sameRest, traces⟩ := readMany_accompanies (inductionHypothesis within) text
    exact ⟨sameRest, sameRest.symm ▸ traces⟩

end Tiles

section Traced

variable {allowed : Token → Prop} (grammar : Grammar Token Rule)
  (bodies : ∀ {Result : Type} (rule : Rule Result), (grammar.body rule).Within allowed True)

include bodies

/-- The induction is on the text, since a rule is entered only where the text is shorter. -/
theorem enterTrace_accompanies {Outcome : Type} (rule : Rule Outcome) (text : List Char) :
    Accompanies grammar.scan allowed text (grammar.enterTrace rule text)
      (grammar.enter rule text) := by
  rw [enterTrace, enter]
  refine Expression.trace_accompanies (fun inner shorter => ?_) _ (bodies rule) text
  split
  · next less => exact enterTrace_accompanies inner shorter
  · trivial
termination_by text.length

/-- What is read is traced. -/
theorem exists_trace_of_read (expression : Expression Token Rule Result)
    (within : expression.Within allowed True) {text rest : List Char} {value : Result}
    (found : grammar.read expression text = some (value, rest)) :
    ∃ leaves, grammar.trace expression text = some (leaves, rest) ∧
      Tiles grammar.scan text leaves rest ∧ ∀ leaf ∈ leaves, allowed leaf.kind := by
  have accompanies : Accompanies grammar.scan allowed text (grammar.trace expression text)
      (grammar.read expression text) :=
    Expression.trace_accompanies (enterTrace_accompanies grammar bodies) expression within text
  rcases accompanies.cases with ⟨-, missing⟩ | ⟨leaves, _, last, traced, read, traces⟩
  · rw [found] at missing
    contradiction
  · obtain ⟨-, rfl⟩ := Prod.mk.inj (Option.some.inj (found.symm.trans read))
    exact ⟨leaves, traced, traces⟩

end Traced

end InterfaceAudit.Grammar
