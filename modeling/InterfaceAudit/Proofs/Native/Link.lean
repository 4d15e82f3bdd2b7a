import InterfaceAudit.CrossReference
import InterfaceAudit.Proofs.Native.Pattern
import InterfaceAudit.Proofs.Table
import Mathlib.Order.Lattice.Nat

/-!
Native links: a subject is linked to the first line that declares its symbol and to the first line
that defines it.
-/

namespace InterfaceAudit

open Idl (Subject)

/-! ### Lines -/

/-- The numbers of the lines of a text that have a property. -/
def linesWhere (text : List Char) (holds : List Char → Prop) : Set Nat :=
  {number | 1 ≤ number ∧ ∃ line, (Text.lines text)[number - 1]? = some line ∧ holds line}

/-- The numbers of given lines that have a property. -/
def numbersWhere (lines : List (List Char)) (holds : List Char → Prop) : Set Nat :=
  {number | 1 ≤ number ∧ ∃ line, lines[number - 1]? = some line ∧ holds line}

/-- The line of a symbol that stands in a table. -/
def SymbolTable.line? (table : SymbolTable) (name : String) : Option Nat :=
  (table.get? name).map Place.line

/-- The number of a line that passes a test. -/
def passed? (test : List Char → Bool) (line : Nat × List Char) : Option Nat :=
  if test line.2 then some line.1 else none

/-- The lines of a list whose first line has a given number. -/
def passingFrom (start : Nat) (lines : List (List Char)) (test : List Char → Bool) : Set Nat :=
  {number | start ≤ number ∧ ∃ line, lines[number - start]? = some line ∧ test line = true}

/-- A line that does not pass is left out. -/
theorem passingFrom_cons {start : Nat} {line : List Char} {lines : List (List Char)}
    {test : List Char → Bool} (fails : test line = false) :
    passingFrom start (line :: lines) test = passingFrom (start + 1) lines test := by
  ext number
  constructor
  · rintro ⟨atLeast, other, found, passes⟩
    obtain rfl | above := Nat.eq_or_lt_of_le atLeast
    · rw [Nat.sub_self, List.getElem?_cons_zero] at found
      rw [Option.some.inj found, passes] at fails
      contradiction
    · rw [show number - start = number - (start + 1) + 1 by omega, List.getElem?_cons_succ] at found
      exact ⟨above, other, found, passes⟩
  · rintro ⟨above, other, found, passes⟩
    refine ⟨Nat.le_of_succ_le above, other, ?_, passes⟩
    rw [show number - start = number - (start + 1) + 1 by omega, List.getElem?_cons_succ, found]

/-- The first line that passes is the least number of one. -/
theorem findSome?_numbered_eq_some_iff {test : List Char → Bool} {start number : Nat}
    {lines : List (List Char)} :
    (Text.numbered start lines).findSome? (passed? test) = some number ↔
      IsLeast (passingFrom start lines test) number := by
  induction lines generalizing start with
  | nil => simp [Text.numbered, IsLeast, passingFrom]
  | cons line lines inductionHypothesis =>
    rw [Text.numbered, List.findSome?_cons]
    cases tested : test line with
    | true =>
      have least : IsLeast (passingFrom start (line :: lines) test) start :=
        ⟨⟨Nat.le_refl start, line, by simp, tested⟩, fun _ member => member.1⟩
      simp only [passed?, tested, if_true, Option.some.injEq]
      exact ⟨fun same => same ▸ least, fun other => least.unique other⟩
    | false =>
      simp only [passed?, tested, Bool.false_eq_true, if_false]
      rw [passingFrom_cons tested]
      exact inductionHypothesis

/-- The first line that passes a test, where the test decides the property. -/
theorem findSome?_lines_eq_some_iff {test : List Char → Bool} {holds : List Char → Prop}
    (decides : ∀ line, test line = true ↔ holds line) (text : List Char) (number : Nat) :
    (Text.numbered 1 (Text.lines text)).findSome? (passed? test) = some number ↔
      IsLeast (linesWhere text holds) number := by
  rw [findSome?_numbered_eq_some_iff]
  simp only [passingFrom, linesWhere, decides]

/-! ### Declarations -/

namespace Native

/-- A line declares a symbol. A line that declares a static method declares nothing else. -/
def Declares (returnTypes : List String) (isStatic : Bool) (symbol line : List Char) : Prop :=
  if isStatic then StaticDeclaration symbol line
  else (∀ other, ¬ StaticDeclaration other line) ∧
    InstanceDeclaration (spellingsOf returnTypes) symbol line

def Declared.of (isStatic : Bool) (name : String) : Declared :=
  if isStatic then .static name else .instance name

/-- A line is read as the declaration that it is. -/
theorem declared?_eq_some_iff {returnTypes : List String} {isStatic : Bool} {symbol : String}
    {line : List Char} :
    declared? (spellingsOf returnTypes) line = some (.of isStatic symbol) ↔
      Declares returnTypes isStatic symbol.toList line := by
  have unread : staticName? line = none ↔ ∀ other, ¬ StaticDeclaration other line :=
    Option.eq_none_iff_forall_ne_some.trans
      (forall_congr' fun _ => not_congr staticName?_eq_some_iff)
  have spelled (name : List Char) : String.ofList name = symbol ↔ name = symbol.toList :=
    ⟨fun same => same ▸ String.toList_ofList.symm, fun same => same ▸ String.ofList_toList⟩
  unfold declared? Declares Declared.of
  cases isStatic with
  | true =>
    rw [if_pos rfl, if_pos rfl, ← staticName?_eq_some_iff]
    cases staticName? line with
    | none => simp
    | some name => simp [spelled]
  | false =>
    rw [if_neg Bool.false_ne_true, if_neg Bool.false_ne_true, ← unread, ← methodName?_eq_some_iff]
    cases staticName? line with
    | none => simp [spelled]
    | some name => simp

end Native

/-- The methods of a header that are static, or those that are not. -/
def HeaderSymbols.table (symbols : HeaderSymbols) (isStatic : Bool) : SymbolTable :=
  if isStatic then symbols.staticMethods else symbols.methods

namespace Native

/-- A symbol that is known already keeps its line. -/
theorem line?_insertNew (table : SymbolTable) (name other : String) (place : Place) :
    SymbolTable.line? (table.insertNew name place) other =
      (SymbolTable.line? table other).or (if name = other then some place.line else none) := by
  rw [SymbolTable.line?, Table.get?_insertNew, Option.map_or, SymbolTable.line?]
  split <;> rfl

/-- A line adds what it declares to the header, and nothing else. -/
theorem record_line? (types : List (List Char)) (isStatic : Bool) (symbol : String)
    (symbols : HeaderSymbols) (line : Nat × List Char) :
    ((record types symbols line).table isStatic).line? symbol =
      ((symbols.table isStatic).line? symbol).or
        (passed? (fun text => declared? types text == some (.of isStatic symbol)) line) := by
  unfold record passed?
  cases found : declared? types line.2 with
  | none => simp [found]
  | some declared =>
    cases declared with
    | static name =>
      cases isStatic with
      | true => simp [HeaderSymbols.table, Declared.of, line?_insertNew, found]
      | false => simp [HeaderSymbols.table, Declared.of, found]
    | «instance» name =>
      cases isStatic with
      | true => simp [HeaderSymbols.table, Declared.of, found]
      | false => simp [HeaderSymbols.table, Declared.of, line?_insertNew, found]

/-- A header knows each symbol by the first line that declares it. -/
theorem readHeader_line?_eq_some_iff (returnTypes : List String) (isStatic : Bool)
    (symbol : String) (text : List Char) (number : Nat) :
    ((readHeader returnTypes text).table isStatic).line? symbol = some number ↔
      IsLeast (linesWhere text (Declares returnTypes isStatic symbol.toList)) number := by
  have decides (line : List Char) :
      (declared? (spellingsOf returnTypes) line == some (.of isStatic symbol)) = true ↔
        Declares returnTypes isStatic symbol.toList line :=
    beq_iff_eq.trans declared?_eq_some_iff
  rw [← findSome?_lines_eq_some_iff decides text number]
  refine Eq.congr_left ?_
  refine (foldl_finds_first (fun symbols : HeaderSymbols => (symbols.table isStatic).line? symbol)
    (record_line? (spellingsOf returnTypes) isStatic symbol) _ _).trans ?_
  cases isStatic <;> rfl

/-! ### Definitions -/

/-- A line defines a method. A line that defines the constructor defines nothing else. -/
def Defines (className symbol line : List Char) : Prop :=
  ¬ ConstructorDefinition className line ∧ LeftmostDefinition className symbol line ∧
    symbol ≠ className

/-- The test of a line for the definition of a method. -/
def definesMethod (className symbol line : List Char) : Bool :=
  !definesConstructor className line && definedName? className line == some symbol &&
    symbol != className

/-- The test for definitions of a method finds exactly these. -/
theorem definesMethod_eq_true_iff (className symbol line : List Char) :
    definesMethod className symbol line = true ↔ Defines className symbol line := by
  rw [Defines, ← definesConstructor_eq_true_iff, ← definedName?_eq_some_iff]
  simp [definesMethod, and_assoc]

end Native

open Native (Owner)

/-- Where the symbol of an owner stands. -/
def ImplementationSymbols.place? (symbols : ImplementationSymbols) : Owner → Option Place
  | .constructor => symbols.constructor
  | .method name => symbols.methods.get? name

/-- The first line of the symbol of an owner. -/
def ImplementationSymbols.line? (symbols : ImplementationSymbols) (owner : Owner) : Option Nat :=
  (symbols.place? owner).map Place.line

namespace Native

/-- A line defines the symbol of an owner. -/
def Owner.DefinedOn (className : List Char) : Owner → List Char → Prop
  | .constructor, line => ConstructorDefinition className line
  | .method name, line => Defines className name.toList line

/-- The test for what a line defines. -/
def Owner.definedOn (className : List Char) : Owner → List Char → Bool
  | .constructor, line => definesConstructor className line
  | .method name, line => definesMethod className name.toList line

/-- The test for definitions of an owner finds exactly these. -/
theorem definedOn_eq_true_iff (className : List Char) (owner : Owner) (line : List Char) :
    owner.definedOn className line = true ↔ owner.DefinedOn className line := by
  cases owner with
  | constructor => exact definesConstructor_eq_true_iff
  | method name => exact definesMethod_eq_true_iff className name.toList line

/-- A line starts at most one body. -/
theorem Owner.DefinedOn.unique {className line : List Char} {owner other : Owner}
    (defined : owner.DefinedOn className line)
    (alsoDefined : other.DefinedOn className line) : owner = other := by
  cases owner with
  | constructor =>
    cases other with
    | constructor => rfl
    | method name => exact absurd defined alsoDefined.1
  | method name =>
    cases other with
    | constructor => exact absurd alsoDefined defined.1
    | method otherName =>
      have found := definedName?_eq_some_iff.mpr defined.2.1
      have alsoFound := definedName?_eq_some_iff.mpr alsoDefined.2.1
      rw [found] at alsoFound
      rw [String.toList_injective (Option.some.inj alsoFound)]

/-- A line starts the body of what it defines, unless the symbol is known. -/
theorem starts_eq_some_iff {className : List Char} {symbols : ImplementationSymbols}
    {line : List Char} {owner : Owner} :
    starts className symbols line = some owner ↔
      owner.DefinedOn className line ∧ symbols.place? owner = none := by
  rw [← definedOn_eq_true_iff]
  unfold starts
  cases constructs : definesConstructor className line with
  | true =>
    cases owner with
    | constructor =>
      simp [Owner.definedOn, constructs, ImplementationSymbols.place?]
    | method name => simp [Owner.definedOn, constructs, definesMethod]
  | false =>
    cases owner with
    | constructor =>
      simp only [Owner.definedOn, constructs, Bool.false_eq_true, if_false, false_and, iff_false]
      split
      · split <;> simp
      · simp
    | method name =>
      cases defined : definedName? className line with
      | none => simp [Owner.definedOn, definesMethod, defined]
      | some found =>
        by_cases same : found = name.toList
        · subst same
          simp [Owner.definedOn, definesMethod, defined, constructs,
            ImplementationSymbols.place?, Table.contains_eq_isSome]
        · have apart : String.ofList found ≠ name := fun spelled =>
            same (spelled ▸ String.toList_ofList.symm)
          simp [Owner.definedOn, definesMethod, defined, same, apart]

/-- A line that defines something names it with its class. -/
theorem Owner.DefinedOn.qualifiesName {className line : List Char} {owner : Owner}
    (defined : owner.DefinedOn className line) : QualifiesName className line := by
  cases owner with
  | constructor => exact .inl defined
  | method name => exact .inr ⟨name.toList, defined.2.1⟩

/-- A line without a qualified name starts nothing. -/
theorem starts_eq_none_of_unqualified {className line : List Char}
    (unqualified : ¬ QualifiesName className line) (symbols : ImplementationSymbols) :
    starts className symbols line = none :=
  Option.eq_none_iff_forall_ne_some.mpr fun _ started =>
    unqualified (starts_eq_some_iff.mp started).1.qualifiesName

/-- A line that defines a symbol starts nothing when the symbol is known. -/
theorem starts_eq_none_of_known {className line : List Char} {symbols : ImplementationSymbols}
    {owner : Owner} (defined : owner.DefinedOn className line)
    (known : symbols.place? owner ≠ none) : starts className symbols line = none :=
  Option.eq_none_iff_forall_ne_some.mpr fun _ started =>
    have ⟨alsoDefined, unknown⟩ := starts_eq_some_iff.mp started
    known (defined.unique alsoDefined ▸ unknown)

/-- A body that starts is recorded once. -/
theorem place?_recordStart (symbols : ImplementationSymbols) (line : Nat) {owner : Owner}
    (unknown : symbols.place? owner = none) (other : Owner) :
    (recordStart symbols line owner).place? other =
      if owner = other then some ⟨line, none⟩ else symbols.place? other := by
  cases owner with
  | constructor =>
    cases other with
    | constructor => rfl
    | method name => rfl
  | method name =>
    cases other with
    | constructor => rfl
    | method otherName =>
      simp only [recordStart, ImplementationSymbols.place?, Table.get?_insertNew,
        Owner.method.injEq]
      split
      · next same =>
        rw [← same, show symbols.methods.get? name = none from unknown, Option.none_or]
      · rw [Option.or_none]

/-- A body that ends keeps its first line. -/
theorem place?_recordEnd (symbols : ImplementationSymbols) (line : Nat) (owner other : Owner) :
    (recordEnd symbols line owner).place? other =
      (symbols.place? other).map fun place =>
        if owner = other then { place with endLine := some line } else place := by
  cases owner with
  | constructor =>
    cases other with
    | constructor => rfl
    | method name => simp [recordEnd, ImplementationSymbols.place?]
  | method name =>
    cases other with
    | constructor => simp [recordEnd, ImplementationSymbols.place?]
    | method otherName =>
      simp only [recordEnd, ImplementationSymbols.place?, Table.get?_adjust, Owner.method.injEq,
        eq_comm]

/-- A line adds the symbol that it defines, whatever body is open. -/
theorem line?_begin (className : List Char) (scan : Scan) (line : Nat × List Char)
    (owner : Owner) :
    (scan.begin className line).symbols.line? owner =
      (scan.symbols.line? owner).or (passed? (owner.definedOn className) line) := by
  unfold Scan.begin
  cases started : starts className scan.symbols line.2 with
  | none =>
    cases known : scan.symbols.place? owner with
    | some place => simp [ImplementationSymbols.line?, known]
    | none =>
      have undefined : owner.definedOn className line.2 = false := by
        rw [← Bool.not_eq_true, definedOn_eq_true_iff]
        intro defined
        rw [starts_eq_some_iff.mpr ⟨defined, known⟩] at started
        contradiction
      simp [ImplementationSymbols.line?, known, passed?, undefined]
  | some other =>
    obtain ⟨defined, unknown⟩ := starts_eq_some_iff.mp started
    rw [ImplementationSymbols.line?, place?_recordStart _ _ unknown]
    by_cases same : other = owner
    · subst same
      have tested := (definedOn_eq_true_iff className other line.2).mpr defined
      simp [ImplementationSymbols.line?, unknown, passed?, tested]
    · have undefined : owner.definedOn className line.2 = false := by
        rw [← Bool.not_eq_true, definedOn_eq_true_iff]
        exact fun alsoDefined => same (defined.unique alsoDefined)
      simp [ImplementationSymbols.line?, same, passed?, undefined]

/-- The end of a body changes no first line. -/
theorem line?_count (scan : Scan) (line : Nat × List Char) (owner : Owner) :
    (scan.count line).symbols.line? owner = scan.symbols.line? owner := by
  unfold Scan.count
  split
  · simp only
    split
    · simp only [ImplementationSymbols.line?, place?_recordEnd, Option.map_map]
      congr 1
      funext place
      simp only [Function.comp_apply]
      split <;> rfl
    · rfl
  · rfl

/-- The scan of some lines. -/
def scanned (className : List Char) (lines : List (List Char)) : Scan :=
  (Text.numbered 1 lines).foldl (Scan.step className) Scan.empty

/-- An implementation knows each symbol by the first line that defines it. -/
theorem line?_scanned_eq_some_iff (className : List Char) (lines : List (List Char))
    (owner : Owner) (number : Nat) :
    (scanned className lines).symbols.line? owner = some number ↔
      IsLeast (numbersWhere lines (owner.DefinedOn className)) number := by
  have learns (scan : Scan) (line : Nat × List Char) :
      (scan.step className line).symbols.line? owner =
        (scan.symbols.line? owner).or (passed? (owner.definedOn className) line) := by
    rw [Scan.step, line?_count, line?_begin]
  have found := foldl_finds_first (fun scan : Scan => scan.symbols.line? owner) learns Scan.empty
    (Text.numbered 1 lines)
  have unknown : Scan.empty.symbols.line? owner = none := by
    cases owner <;> rfl
  rw [unknown, Option.none_or] at found
  rw [scanned, found, findSome?_numbered_eq_some_iff]
  simp only [passingFrom, definedOn_eq_true_iff]
  rfl

/-- An implementation knows each method by the first line that defines it. -/
theorem readImplementation_line?_eq_some_iff (className symbol : String) (text : List Char)
    (number : Nat) :
    (readImplementation className text).methods.line? symbol = some number ↔
      IsLeast (linesWhere text (Defines className.toList symbol.toList)) number :=
  line?_scanned_eq_some_iff className.toList (Text.lines text) (.method symbol) number

end Native

/-! ### Links -/

/-- The name of a subject in native code. -/
def Idl.Subject.nativeName? : Subject → Option String
  | .attribute member => some ("Get" ++ capitalize member.name)
  | .method name _ => some (capitalize name)
  | .constructor _ => none

def Idl.Subject.isStaticMethod : Subject → Bool
  | .method _ member => member.isStatic
  | _ => false

/-- The methods of a wrapper that are static, or those that are not. -/
def WrapperSymbols.table (symbols : WrapperSymbols) (isStatic : Bool) : SymbolTable :=
  if isStatic then symbols.staticMethods else symbols.methods

/-- Where a wrapper has the member that a subject needs. -/
def Idl.Subject.boundPlace? (wrapper : WrapperSymbols) : Subject → Option Place
  | .attribute member => wrapper.getters.get? member.name
  | .method name member => (wrapper.table member.isStatic).get? name
  | .constructor _ => wrapper.constructor

/-- A demand is met when the header and the implementation know the native name, and the links show
the lines by which they know it. -/
theorem Demand.resolve_eq_ok_iff {demand : Demand} {interface name : String}
    {implementation : SymbolTable} {files : ArtifactFiles} {links : CrossReference} {place : Place}
    (bound : demand.wrapperTable.get? name = some place) :
    demand.resolve interface name implementation files = .ok links ↔
      ∃ declared defined, demand.headerTable.get? demand.native = some declared ∧
        implementation.get? demand.native = some defined ∧
        links =
          { declaration := some ⟨files.header, declared.line, none⟩
            implementation := some (.at files.implementation defined)
            binding := some (.at files.wrapper place) } := by
  unfold Demand.resolve
  cases demand.headerTable.get? demand.native with
  | none => simp
  | some declared =>
    cases implementation.get? demand.native with
    | none => simp
    | some defined => simp [bound, eq_comm]

namespace Demand

variable (symbols : ArtifactSymbols) (name : String) (isStatic : Bool)

theorem ofMethod_native : (ofMethod symbols name isStatic).native = capitalize name := by
  cases isStatic <;> rfl

/-- Static methods are looked for among the static declarations. -/
theorem ofMethod_headerTable :
    (ofMethod symbols name isStatic).headerTable = symbols.header.table isStatic := by
  cases isStatic <;> rfl

theorem ofMethod_wrapperTable :
    (ofMethod symbols name isStatic).wrapperTable = symbols.wrapper.table isStatic := by
  cases isStatic <;> rfl

end Demand

/-- What is demanded for a subject with a native name. -/
theorem resolve_eq_demand (interface : String) (symbols : ArtifactSymbols) (files : ArtifactFiles)
    {subject : Subject} {symbol : String} {place : Place}
    (named : subject.nativeName? = some symbol)
    (bound : subject.boundPlace? symbols.wrapper = some place) :
    ∃ demand : Demand, demand.native = symbol ∧
      demand.headerTable = symbols.header.table subject.isStaticMethod ∧
      demand.wrapperTable.get? subject.name = some place ∧
      resolve interface subject symbols files =
        demand.resolve interface subject.name symbols.implementation.methods files := by
  cases subject with
  | «attribute» member =>
    exact ⟨.ofAttribute symbols member.name, Option.some.inj named, rfl, bound, rfl⟩
  | method name member =>
    refine ⟨.ofMethod symbols name member.isStatic, ?_, Demand.ofMethod_headerTable .., ?_, rfl⟩
    · rw [Demand.ofMethod_native]
      exact Option.some.inj named
    · rw [Demand.ofMethod_wrapperTable]
      exact bound
  | constructor member => contradiction

/-- Numbers have a least one if there are any. -/
theorem nonempty_iff_isLeast {numbers : Set Nat} :
    numbers.Nonempty ↔ ∃ number, IsLeast numbers number :=
  ⟨fun nonempty => ⟨sInf numbers, Nat.sInf_mem nonempty, fun _ => Nat.sInf_le⟩,
    fun ⟨number, least⟩ => ⟨number, least.1⟩⟩

open Native in
/-- A subject that the wrapper binds is resolved exactly when some line of the header declares its
native name and some line of the implementation defines it. The links show the first such lines. -/
theorem resolve_links_first_lines (returnTypes : List String) (interface symbol : String)
    (subject : Subject) (header implementation : List Char) (wrapper : WrapperSymbols)
    (files : ArtifactFiles) (named : subject.nativeName? = some symbol)
    (bound : (subject.boundPlace? wrapper).isSome) :
    let symbols : ArtifactSymbols :=
      ⟨readHeader returnTypes header, readImplementation interface implementation, wrapper⟩
    let declarations :=
      linesWhere header (Declares returnTypes subject.isStaticMethod symbol.toList)
    let definitions := linesWhere implementation (Defines interface.toList symbol.toList)
    ((∃ links, resolve interface subject symbols files = .ok links) ↔
        declarations.Nonempty ∧ definitions.Nonempty) ∧
      ∀ links, resolve interface subject symbols files = .ok links →
        ∃ declaration definition, links.declaration = some declaration ∧
          links.implementation = some definition ∧ IsLeast declarations declaration.line ∧
          IsLeast definitions definition.line := by
  intro symbols declarations definitions
  obtain ⟨place, bound⟩ := Option.isSome_iff_exists.mp bound
  obtain ⟨demand, rfl, headerTable, bound, resolved⟩ :=
    resolve_eq_demand interface symbols files named bound
  have declared (number : Nat) : demand.headerTable.line? demand.native = some number ↔
      IsLeast declarations number := by
    rw [headerTable]
    exact readHeader_line?_eq_some_iff ..
  have defined (number : Nat) : symbols.implementation.methods.line? demand.native = some number ↔
      IsLeast definitions number :=
    readImplementation_line?_eq_some_iff ..
  simp only [resolved, Demand.resolve_eq_ok_iff bound, nonempty_iff_isLeast, ← declared, ← defined]
  constructor
  · constructor
    · rintro ⟨links, first, second, declared, defined, -⟩
      exact ⟨⟨first.line, congrArg (Option.map Place.line) declared⟩,
        ⟨second.line, congrArg (Option.map Place.line) defined⟩⟩
    · rintro ⟨⟨first, isDeclared⟩, ⟨second, isDefined⟩⟩
      obtain ⟨declared, foundDeclared, -⟩ := Option.map_eq_some_iff.mp isDeclared
      obtain ⟨defined, foundDefined, -⟩ := Option.map_eq_some_iff.mp isDefined
      exact ⟨_, declared, defined, foundDeclared, foundDefined, rfl⟩
  · rintro links ⟨first, second, declared, defined, rfl⟩
    exact ⟨_, _, rfl, rfl, congrArg (Option.map Place.line) declared,
      congrArg (Option.map Place.line) defined⟩

/-- A header that declares a method statically first and as an instance method twice. -/
def repeatedHeader : List Char :=
  "class A : B \x7b\n  static void Run(int x);\n  void Run(int x);\n  bool Run();\n\x7d;\n".toList

/-- An implementation whose first body is still open where the method is defined. -/
def openImplementation : List Char :=
  "A::A() \x7b\nvoid A::Run(int x) \x7b\n\x7d\nvoid A::Run(int y) \x7b \x7d\n".toList

/-- A wrapper with one method. -/
def runWrapper : WrapperSymbols where
  className := "A"
  constructor := none
  methods := Table.empty.insertNew "run" ⟨2, some 3⟩
  getters := .empty
  setters := .empty
  staticMethods := .empty

/-- A declaration and a definition that are repeated count with their first lines. -/
theorem resolve_repeated_run :
    IsLeast (linesWhere repeatedHeader
        (Native.Declares Native.defaultReturnTypes false "Run".toList)) 3 ∧
      IsLeast (linesWhere openImplementation (Native.Defines "A".toList "Run".toList)) 2 := by
  have resolved : resolve "A" (.method "run" { name := some "run", returnType := "undefined" })
      ⟨Native.readHeader Native.defaultReturnTypes repeatedHeader,
        Native.readImplementation "A" openImplementation, runWrapper⟩ (.conventional "A") =
      .ok
        { declaration := some ⟨"src/A.h", 3, none⟩
          implementation := some ⟨"src/A.cpp", 2, some 3⟩
          binding := some ⟨"lib/A.ts", 2, some 3⟩ } := by
    decide +kernel
  obtain ⟨declaration, definition, sameDeclaration, sameDefinition, declared, defined⟩ :=
    (resolve_links_first_lines Native.defaultReturnTypes "A" "Run" _ repeatedHeader
      openImplementation runWrapper _ (by decide +kernel) (by decide +kernel)).2 _ resolved
  rw [← Option.some.inj sameDeclaration] at declared
  rw [← Option.some.inj sameDefinition] at defined
  exact ⟨declared, defined⟩

end InterfaceAudit
