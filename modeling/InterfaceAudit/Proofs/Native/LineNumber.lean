import InterfaceAudit.Proofs.Native.Link
import InterfaceAudit.Proofs.Text.Lines

/-!
Line numbers of native symbols.
Every recorded line is a line of the text that holds what was recorded, and its number counts all
line ends in front of it, those without a line feed included.
-/

namespace InterfaceAudit.Native

open Text

/-- A line has a property, and its number counts the line feeds in front of it and the line ends
without a line feed. -/
def NumbersLine (text : List Char) (holds : List Char → Prop) (number : Nat) : Prop :=
  ∃ front line back, text = front ++ (line ++ back) ∧ LineBetween front line back ∧ holds line ∧
    number = 1 + newlines front + strayEnds front

/-- A line that holds what is looked for is numbered by the line ends in front of it. -/
theorem numbersLine_of_mem {text : List Char} {holds : List Char → Prop} {number : Nat}
    (member : number ∈ linesWhere text holds) : NumbersLine text holds number := by
  obtain ⟨positive, line, found, held⟩ := member
  obtain ⟨front, back, split, between, counted⟩ := exists_lineBetween found
  refine ⟨front, line, back, split, between, held, ?_⟩
  rw [lineEnds] at counted
  omega

/-- The numbered lines of a text are its lines under their numbers. -/
theorem numbersLine_of_numbered {text line : List Char} {holds : List Char → Prop} {number : Nat}
    (member : (number, line) ∈ numbered 1 (lines text)) (held : holds line) :
    NumbersLine text holds number :=
  have ⟨positive, found⟩ := mem_numbered member
  numbersLine_of_mem ⟨positive, line, found, held⟩

/-! ### Headers -/

/-- A table in which no symbol has a last line. -/
def Unended (table : SymbolTable) : Prop :=
  ∀ name place, table.get? name = some place → place.endLine = none

/-- A declaration has no last line. -/
theorem Unended.insertNew {table : SymbolTable} (unended : Unended table) (name : String)
    (line : Nat) : Unended (table.insertNew name ⟨line, none⟩) := by
  intro other place found
  rcases Table.get?_of_insertNew found with known | rfl
  · exact unended other place known
  · rfl

/-- Recording a line of a header brings no last line. -/
theorem record_unended {types : List (List Char)} {symbols : HeaderSymbols}
    (unended : ∀ isStatic, Unended (symbols.table isStatic)) (line : Nat × List Char)
    (isStatic : Bool) : Unended ((record types symbols line).table isStatic) := by
  unfold record
  split
  · cases isStatic with
    | true => exact (unended true).insertNew _ _
    | false => exact unended false
  · cases isStatic with
    | true => exact unended true
    | false => exact (unended false).insertNew _ _
  · exact unended isStatic

/-- No declaration of a header has a last line. -/
theorem readHeader_unended (returnTypes : List String) (text : List Char) (isStatic : Bool) :
    Unended ((readHeader returnTypes text).table isStatic) := by
  refine List.foldlRecOn _ _ (motive := fun symbols : HeaderSymbols =>
    ∀ isStatic, Unended (symbols.table isStatic)) ?_ ?_ isStatic
  · intro isStatic name place found
    cases isStatic <;> contradiction
  · exact fun symbols unended line _ => record_unended unended line

/-! ### Implementations -/

/-- The last line of a place is one of some lines and has a closing brace. -/
def EndsOn (lines : List (Nat × List Char)) (place : Place) : Prop :=
  ∀ last, place.endLine = some last → ∃ line, (last, line) ∈ lines ∧ '\x7d' ∈ line

/-- What a scan has recorded stands on some lines. -/
structure Grounded (className : List Char) (lines : List (Nat × List Char))
    (symbols : ImplementationSymbols) : Prop where
  constructor : ∀ place, symbols.constructor = some place →
    (∃ line, (place.line, line) ∈ lines ∧ definesConstructor className line = true) ∧
      EndsOn lines place
  methods : ∀ name place, symbols.methods.get? name = some place → EndsOn lines place

variable {className : List Char} {lines : List (Nat × List Char)} {line : Nat × List Char}

/-- A constructor is started only by a line that defines it. -/
theorem definesConstructor_of_starts {symbols : ImplementationSymbols} {line : List Char}
    (started : starts className symbols line = some .constructor) :
    definesConstructor className line = true := by
  unfold starts at started
  split at started
  · assumption
  · split at started
    · rw [Option.ite_none_left_eq_some] at started
      exact nomatch started.2
    · contradiction

/-- A started body stands on a line that defines its owner. -/
theorem Grounded.begin {scan : Scan} (grounded : Grounded className lines scan.symbols)
    (member : line ∈ lines) : Grounded className lines (scan.begin className line).symbols := by
  unfold Scan.begin
  cases started : starts className scan.symbols line.2 with
  | none => exact grounded
  | some owner =>
    cases owner with
    | constructor =>
      refine ⟨fun place found => ?_, grounded.methods⟩
      obtain rfl : ⟨line.1, none⟩ = place := Option.some.inj found
      exact ⟨⟨line.2, member, definesConstructor_of_starts started⟩, nofun⟩
    | method name =>
      refine ⟨grounded.constructor, fun other place found => ?_⟩
      rcases Table.get?_of_insertNew found with known | rfl
      · exact grounded.methods other place known
      · exact nofun

/-- A body that ends does so on a line with a closing brace. -/
theorem Grounded.count {scan : Scan} (grounded : Grounded className lines scan.symbols)
    (member : line ∈ lines) : Grounded className lines (scan.count line).symbols := by
  unfold Scan.count
  cases scan.open? with
  | none => exact grounded
  | some owner =>
    dsimp only
    split
    · next closes =>
      have brace : '\x7d' ∈ line.2 := by simpa using (Bool.and_eq_true_iff.mp closes).2
      have ended (place : Place) : EndsOn lines { place with endLine := some line.1 } := by
        rintro last same
        exact ⟨line.2, Option.some.inj same ▸ member, brace⟩
      cases owner with
      | constructor =>
        refine ⟨fun place found => ?_, grounded.methods⟩
        obtain ⟨opened, known, rfl⟩ := Option.map_eq_some_iff.mp found
        exact ⟨(grounded.constructor opened known).1, ended opened⟩
      | method name =>
        refine ⟨grounded.constructor, fun other place found => ?_⟩
        obtain ⟨opened, known, rfl | rfl⟩ := Table.get?_of_adjust found
        · exact grounded.methods other place known
        · exact ended opened
    · exact grounded

/-- Every recorded line is a line of the text, by induction on the lines. -/
theorem readImplementation_grounded (className : String) (text : List Char) :
    Grounded className.toList (numbered 1 (Text.lines text))
      (readImplementation className text) := by
  refine List.foldlRecOn _ _ (motive := fun scan : Scan =>
    Grounded className.toList (numbered 1 (Text.lines text)) scan.symbols) ?_ ?_
  · exact ⟨nofun, nofun⟩
  · exact fun scan grounded line member => (grounded.begin member).count member

/-- The last line of a body is numbered by the line ends in front of it. -/
theorem EndsOn.numbersLine {text : List Char} {place : Place}
    (endsOn : EndsOn (numbered 1 (Text.lines text)) place) (last : Nat)
    (ended : place.endLine = some last) : NumbersLine text ('\x7d' ∈ ·) last :=
  have ⟨_, member, brace⟩ := endsOn last ended
  numbersLine_of_numbered member brace

/-! ### Numbers -/

/-- The numbers of all recorded lines follow one rule. They agree with a count of line feeds as long
as no other line end stands in front of the line. -/
theorem recorded_lines_count_lineEnds (text : List Char) :
    (∀ returnTypes isStatic name place,
      ((readHeader returnTypes text).table isStatic).get? name = some place →
        NumbersLine text (Declares returnTypes isStatic name.toList) place.line ∧
          place.endLine = none) ∧
      ∀ className,
        (∀ place, (readImplementation className text).constructor = some place →
          NumbersLine text (ConstructorDefinition className.toList) place.line ∧
            ∀ last, place.endLine = some last → NumbersLine text ('\x7d' ∈ ·) last) ∧
        ∀ name place, (readImplementation className text).methods.get? name = some place →
          NumbersLine text (Defines className.toList name.toList) place.line ∧
            ∀ last, place.endLine = some last → NumbersLine text ('\x7d' ∈ ·) last := by
  refine ⟨fun returnTypes isStatic name place found => ?_, fun className => ⟨?_, ?_⟩⟩
  · have least := (readHeader_line?_eq_some_iff returnTypes isStatic name text place.line).mp
      (congrArg (Option.map Place.line) found)
    exact ⟨numbersLine_of_mem least.1,
      readHeader_unended returnTypes text isStatic name place found⟩
  · intro place found
    obtain ⟨⟨line, member, defines⟩, endsOn⟩ :=
      (readImplementation_grounded className text).constructor place found
    exact ⟨numbersLine_of_numbered member (definesConstructor_eq_true_iff.mp defines),
      endsOn.numbersLine⟩
  · intro name place found
    have least := (readImplementation_line?_eq_some_iff className name text place.line).mp
      (congrArg (Option.map Place.line) found)
    exact ⟨numbersLine_of_mem least.1,
      ((readImplementation_grounded className text).methods name place found).numbersLine⟩

/-- A form feed stands between the head of a method and the end of its body. -/
def feedImplementation : List Char := "void A::Run(int x) \x7b\n\x0c\x7d\n".toList

/-- There is one line feed in front of the brace on the third line. -/
theorem recorded_lines_count_formFeed :
    NumbersLine feedImplementation (Defines "A".toList "Run".toList) 1 ∧
      NumbersLine feedImplementation ('\x7d' ∈ ·) 3 ∧
      newlines (feedImplementation.takeWhile (· != '\x7d')) = 1 := by
  have recorded : (readImplementation "A" feedImplementation).methods.get? "Run" =
      some ⟨1, some 3⟩ := by
    decide +kernel
  have ⟨line, last⟩ :=
    ((recorded_lines_count_lineEnds feedImplementation).2 "A").2 "Run" _ recorded
  exact ⟨line, last 3 rfl, by decide⟩

end InterfaceAudit.Native
