import InterfaceAudit.Proofs.Grammar.Kept

/-!
Confined readings: what a phrase reads does not depend on the text behind it.
A text may be cut off anywhere behind a confined phrase, as it may go on behind a kept one.
-/

namespace InterfaceAudit.Grammar

open Expression (thenSkip)

variable {Token : Type} {Rule : Type → Type} {First Second Result Item Filler : Type}
  {grammar : Grammar Token Rule}

/-- What a confined phrase reads it also reads from every text that is cut off behind it. -/
def Confined (grammar : Grammar Token Rule) (expression : Expression Token Rule Result) : Prop :=
  ∀ ⦃text rest extension : List Char⦄ ⦃value : Result⦄,
    grammar.read expression (text ++ extension) = some (value, rest ++ extension) →
    grammar.read expression text = some (value, rest)

/-- The value that is built does not depend on the text behind it. -/
theorem Confined.map {inner : Expression Token Rule First} (confined : Confined grammar inner)
    (build : First → Result) : Confined grammar (.map build inner) := by
  intro text rest extension value found
  obtain ⟨innerValue, innerFound, rfl⟩ := (read_map_eq_some grammar _).mp found
  exact (read_map_eq_some grammar text).mpr ⟨innerValue, confined innerFound, rfl⟩

/-- The source of a confined phrase does not depend on the text behind it. -/
theorem Confined.source {inner : Expression Token Rule First} (confined : Confined grammar inner) :
    Confined grammar (.source inner) := by
  intro text rest extension value found
  obtain ⟨innerFound, source⟩ := (read_source_eq_some grammar _).mp found
  rw [consumed_append] at source
  exact (read_source_eq_some grammar text).mpr ⟨confined innerFound, source⟩

/-- A first alternative that is kept would have matched on the longer text too. -/
theorem Confined.choice {first second : Expression Token Rule Result}
    (firstKept : Kept grammar first) (firstConfined : Confined grammar first)
    (secondConfined : Confined grammar second) : Confined grammar (.choice first second) := by
  intro text rest extension value found
  rw [read_choice_eq_some] at found ⊢
  rcases found with firstFound | ⟨firstMissing, secondFound⟩
  · exact .inl (firstConfined firstFound)
  · refine .inr ⟨?_, secondConfined secondFound⟩
    cases shorter : grammar.read first text with
    | none => rfl
    | some reading =>
      obtain ⟨other, behind⟩ := reading
      rw [firstKept shorter extension] at firstMissing
      contradiction

/-! ### Texts that are cut off -/

/-- A text that ends with another one ends as the other one does. -/
theorem exists_append_of_suffix {text rest extension : List Char}
    (suffix : rest ++ extension <:+ text) : ∃ front, text = front ++ extension := by
  obtain ⟨front, rfl⟩ := suffix
  exact ⟨front ++ rest, (List.append_assoc _ _ _).symm⟩

/-- From inside a boundary a phrase reads as it does on the longer text. -/
theorem Boundary.read_of_inside (boundary : Boundary grammar)
    {expression : Expression Token Rule Result}
    (ends : expression.EndsIn boundary.allowed boundary.closing)
    {text rest extension : List Char} {value : Result}
    (found : grammar.read expression (text ++ extension) = some (value, rest ++ extension))
    (start : boundary.inside text) : grammar.read expression text = some (value, rest) := by
  rw [boundary.read_append extension expression ends start] at found
  cases shorter : grammar.read expression text with
  | none =>
    rw [shorter] at found
    contradiction
  | some reading =>
    obtain ⟨other, behind⟩ := reading
    rw [shorter, extended_some] at found
    obtain ⟨rfl, same⟩ := Prod.mk.inj (Option.some.inj found)
    rw [List.append_cancel_right same]

/-- A boundary is severable when no token looks behind the place at which the text is cut off. -/
structure Boundary.Severable (boundary : Boundary grammar) : Prop where
  scan_suffix : ∀ {kind text taken rest}, grammar.scan kind text = some (taken, rest) →
    rest <:+ text
  inside_of_scan : ∀ {kind text taken rest extension}, boundary.allowed kind →
    grammar.scan kind (text ++ extension) = some (taken, rest ++ extension) →
    boundary.inside rest → boundary.inside text
  inside_of_closing : ∀ {kind text taken rest extension}, boundary.closing kind →
    grammar.scan kind (text ++ extension) = some (taken, rest ++ extension) →
    boundary.inside text

namespace Boundary.Severable

variable {boundary : Boundary grammar} (severable : boundary.Severable)

include severable

/-- Reading leaves an end of the text. -/
theorem read_suffix (expression : Expression Token Rule Result) {text rest : List Char}
    {value : Result} (found : grammar.read expression text = some (value, rest)) :
    rest <:+ text := by
  have all : ∀ kind : Token, True := fun _ => trivial
  exact read_related (fun _ => True) (fun text rest => rest <:+ text) List.suffix_refl
    (fun first second => second.trans first) grammar (fun _ => severable.scan_suffix)
    (fun rule => (grammar.body rule).within_of_forall all) expression
    (expression.within_of_forall all) found

/-- What is read in front of a place inside the boundary begins inside it too, in the text that is
cut off. -/
theorem inside_of_read (expression : Expression Token Rule Result)
    (within : expression.Within (fun kind => boundary.allowed kind ∨ boundary.closing kind) True)
    {text rest extension : List Char} {value : Result}
    (found : grammar.read expression (text ++ extension) = some (value, rest ++ extension))
    (last : boundary.inside rest) : boundary.inside text := by
  let related (long short : List Char) : Prop :=
    short <:+ long ∧ ∀ text rest, long = text ++ extension → short = rest ++ extension →
      boundary.inside rest → boundary.inside text
  have reflexive (text : List Char) : related text text := by
    refine ⟨List.suffix_refl text, ?_⟩
    intro first second sameFirst sameSecond inside
    obtain rfl := List.append_cancel_right (sameFirst.symm.trans sameSecond)
    exact inside
  have transitive {long middle short : List Char} (first : related long middle)
      (second : related middle short) : related long short := by
    refine ⟨second.1.trans first.1, ?_⟩
    rintro text rest rfl rfl inside
    obtain ⟨front, rfl⟩ := exists_append_of_suffix second.1
    exact first.2 text front rfl rfl (second.2 front rest rfl rfl inside)
  have scanned {kind : Token} {long taken short : List Char}
      (known : boundary.allowed kind ∨ boundary.closing kind)
      (found : grammar.scan kind long = some (taken, short)) : related long short := by
    refine ⟨severable.scan_suffix found, ?_⟩
    rintro text rest rfl rfl inside
    rcases known with allowed | closing
    · exact severable.inside_of_scan allowed found inside
    · exact severable.inside_of_closing closing found
  have kept := read_related _ related reflexive transitive grammar scanned
    (fun rule => (boundary.bodies rule).mono fun _ => .inl) expression within found
  exact kept.2 text rest rfl rfl last

/-- A reading with a closing token in it begins inside the boundary, in the text that is cut off. -/
theorem inside_of_closes (expression : Expression Token Rule Result)
    (closes : expression.Closes boundary.closing)
    (within : expression.Within (fun kind => boundary.allowed kind ∨ boundary.closing kind) True)
    {text rest extension : List Char} {value : Result}
    (found : grammar.read expression (text ++ extension) = some (value, rest ++ extension)) :
    boundary.inside text := by
  induction expression generalizing text rest with
  | token kind => exact severable.inside_of_closing closes found
  | rule | optional | many => contradiction
  | seq first second firstHypothesis secondHypothesis =>
    obtain ⟨middle, firstFound, secondFound⟩ := (read_seq_eq_some grammar _).mp found
    obtain ⟨front, rfl⟩ := exists_append_of_suffix (severable.read_suffix second secondFound)
    rcases closes with firstCloses | secondCloses
    · exact firstHypothesis firstCloses within.1 firstFound
    · exact severable.inside_of_read first within.1 firstFound
        (secondHypothesis secondCloses within.2 secondFound)
  | map build inner inductionHypothesis =>
    obtain ⟨innerValue, innerFound, -⟩ := (read_map_eq_some grammar _).mp found
    exact inductionHypothesis closes within innerFound
  | source inner inductionHypothesis =>
    exact inductionHypothesis closes within ((read_source_eq_some grammar _).mp found).1
  | choice first second firstHypothesis secondHypothesis =>
    rcases (read_choice_eq_some grammar _).mp found with firstFound | ⟨-, secondFound⟩
    · exact firstHypothesis closes.1 within.1 firstFound
    · exact secondHypothesis closes.2 within.2 secondFound

/-- A phrase that closes inside the boundary is confined. -/
theorem confined_of_endsIn {expression : Expression Token Rule Result}
    (ends : expression.EndsIn boundary.allowed boundary.closing)
    (closes : expression.Closes boundary.closing)
    (within : expression.Within (fun kind => boundary.allowed kind ∨ boundary.closing kind) True) :
    Confined grammar expression := by
  intro text rest extension value found
  exact boundary.read_of_inside ends found
    (severable.inside_of_closes expression closes within found)

/-- What stays inside the boundary may stand in front of a confined phrase. -/
theorem confined_seq {first : Expression Token Rule First} {second : Expression Token Rule Second}
    (within : first.Within boundary.allowed True) (confined : Confined grammar second)
    (start : ∀ {text}, (grammar.read second text).isSome = true → boundary.inside text) :
    Confined grammar (.seq first second) := by
  intro text rest extension value found
  obtain ⟨middle, firstFound, secondFound⟩ := (read_seq_eq_some grammar _).mp found
  obtain ⟨front, rfl⟩ := exists_append_of_suffix (severable.read_suffix second secondFound)
  have secondShorter := confined secondFound
  have insideFront := start (by rw [secondShorter]; rfl)
  have insideText :=
    severable.inside_of_read first (within.mono fun _ => .inl) firstFound insideFront
  rw [read_seq_eq_some]
  exact ⟨front, boundary.read_of_inside (within.endsIn _) firstFound insideText, secondShorter⟩

/-- An item with the filler behind it is read from the text that is cut off, as long as the place
behind both of them is inside the boundary. -/
theorem read_thenSkip_of_inside {item : Expression Token Rule Item}
    {filler : Expression Token Rule Filler}
    (ends : item.EndsIn boundary.allowed boundary.closing)
    (within : item.Within (fun kind => boundary.allowed kind ∨ boundary.closing kind) True)
    (fillerWithin : filler.Within boundary.allowed True) {text rest extension : List Char}
    {value : Item}
    (found : grammar.read (thenSkip item filler) (text ++ extension) =
      some (value, rest ++ extension))
    (last : boundary.inside rest) :
    grammar.read (thenSkip item filler) text = some (value, rest) := by
  obtain ⟨⟨itemValue, space⟩, bothFound, rfl⟩ := (read_map_eq_some grammar _).mp found
  obtain ⟨middle, itemFound, fillerFound⟩ := (read_seq_eq_some grammar _).mp bothFound
  obtain ⟨front, rfl⟩ := exists_append_of_suffix (severable.read_suffix filler fillerFound)
  have insideFront :=
    severable.inside_of_read filler (fillerWithin.mono fun _ => .inl) fillerFound last
  have insideText := severable.inside_of_read item within itemFound insideFront
  have both : grammar.read (.seq item filler) text = some ((itemValue, space), rest) :=
    (read_seq_eq_some grammar text).mpr ⟨front, boundary.read_of_inside ends itemFound insideText,
      boundary.read_of_inside (fillerWithin.endsIn _) fillerFound insideFront⟩
  rw [thenSkip, read_map, both]
  rfl

/-- A repetition whose end is inside the boundary is read from the text that is cut off. -/
theorem readMany_of_inside (progressive : Progressive grammar) {item : Expression Token Rule Item}
    {filler : Expression Token Rule Filler}
    (ends : item.EndsIn boundary.allowed boundary.closing)
    (within : item.Within (fun kind => boundary.allowed kind ∨ boundary.closing kind) True)
    (takes : item.mayBeEmpty progressive.emptyToken = false)
    (fillerWithin : filler.Within boundary.allowed True)
    (total : ∀ text, (grammar.read filler text).isSome = true)
    {text rest extension : List Char} {items : List Item}
    (found : readMany (grammar.read (thenSkip item filler)) (text ++ extension) =
      (items, rest ++ extension))
    (last : boundary.inside rest) :
    readMany (grammar.read (thenSkip item filler)) text = (items, rest) := by
  have bothWithin : (thenSkip item filler).Within
      (fun kind => boundary.allowed kind ∨ boundary.closing kind) True :=
    ⟨within, fillerWithin.mono fun _ => .inl⟩
  have bothTake : (thenSkip item filler).mayBeEmpty progressive.emptyToken = false := by
    change (item.mayBeEmpty progressive.emptyToken && _) = false
    rw [takes, Bool.false_and]
  generalize whole : text ++ extension = long at found
  induction long using readMany.induct (grammar.read (thenSkip item filler))
    generalizing text items with
  | case1 long value behind itemFound shorter _ _ _ inductionHypothesis =>
    subst whole
    rw [readMany_of_some itemFound shorter] at found
    obtain ⟨rfl, manyRest⟩ := Prod.mk.inj found
    have manyFound : grammar.read (.many (thenSkip item filler)) behind =
        some ((readMany (grammar.read (thenSkip item filler)) behind).1, rest ++ extension) := by
      rw [read_many, ← manyRest]
    obtain ⟨front, rfl⟩ := exists_append_of_suffix (severable.read_suffix _ manyFound)
    have insideFront := severable.inside_of_read (.many (thenSkip item filler)) bothWithin
      manyFound last
    have itemShorter :=
      severable.read_thenSkip_of_inside ends within fillerWithin itemFound insideFront
    have frontLength := progressive.read_length_lt _ bothTake itemShorter
    rw [readMany_of_some itemShorter frontLength,
      inductionHypothesis rfl (Prod.ext rfl manyRest)]
  | case2 long value behind itemFound notShorter =>
    exact absurd (progressive.read_length_lt _ bothTake itemFound) notShorter
  | case3 long missing =>
    subst whole
    rw [readMany_of_none missing] at found
    obtain ⟨rfl, same⟩ := Prod.mk.inj found
    obtain rfl := List.append_cancel_right same
    refine readMany_of_none ?_
    rw [thenSkip, read_map, read_seq, Option.map_eq_none_iff] at missing ⊢
    rw [boundary.read_append extension item ends last] at missing
    cases itemFound : grammar.read item text with
    | none => rfl
    | some reading =>
      obtain ⟨value, behind⟩ := reading
      obtain ⟨reading, fillerFound⟩ := Option.isSome_iff_exists.mp (total (behind ++ extension))
      rw [itemFound, extended_some, Option.bind_some, fillerFound] at missing
      contradiction

/-- Items that close inside the boundary may be repeated in front of a confined phrase. -/
theorem confined_many_seq (progressive : Progressive grammar) {item : Expression Token Rule Item}
    {filler : Expression Token Rule Filler} {last : Expression Token Rule Second}
    (ends : item.EndsIn boundary.allowed boundary.closing)
    (within : item.Within (fun kind => boundary.allowed kind ∨ boundary.closing kind) True)
    (takes : item.mayBeEmpty progressive.emptyToken = false)
    (fillerWithin : filler.Within boundary.allowed True)
    (total : ∀ text, (grammar.read filler text).isSome = true) (confined : Confined grammar last)
    (start : ∀ {text}, (grammar.read last text).isSome = true → boundary.inside text) :
    Confined grammar (.seq (.many (thenSkip item filler)) last) := by
  intro text rest extension value found
  obtain ⟨middle, itemsFound, lastFound⟩ := (read_seq_eq_some grammar _).mp found
  obtain ⟨front, rfl⟩ := exists_append_of_suffix (severable.read_suffix last lastFound)
  have lastShorter := confined lastFound
  have insideFront := start (by rw [lastShorter]; rfl)
  rw [read_many, Option.some.injEq] at itemsFound
  have itemsShorter := severable.readMany_of_inside progressive ends within takes fillerWithin total
    itemsFound insideFront
  rw [read_seq_eq_some]
  exact ⟨front, by rw [read_many, itemsShorter], lastShorter⟩

end Boundary.Severable

end InterfaceAudit.Grammar
