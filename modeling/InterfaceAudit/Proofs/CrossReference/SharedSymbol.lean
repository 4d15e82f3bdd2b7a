import InterfaceAudit.Proofs.CrossReference.Staticness
import InterfaceAudit.Proofs.Idl.Name
import InterfaceAudit.Proofs.Text.Case

/-!
Shared definitions.
Two subjects are linked to one definition exactly when their names lead to one native symbol. Names
of attributes, or of operations, do so when they differ in the case of their first letter only. An
operation shares the symbol of an attribute when it is named after the getter of the attribute.
-/

namespace InterfaceAudit

open Idl (Subject IsIdentifier)

/-! ### Names with one symbol -/

/-- Two names that differ at most in the case of their first letter. -/
def SameUpToInitial (name other : List Char) : Prop :=
  ∃ first second rest, name = first :: rest ∧ other = second :: rest ∧
    first.toUpper = second.toUpper

/-- An operation is named after the getter of an attribute. -/
def NamesGetter (name attributeName : List Char) : Prop :=
  ∃ initial first rest, attributeName = first :: rest ∧
    name = initial :: 'e' :: 't' :: first.toUpper :: rest ∧ initial.toUpper = 'G'

/-- The names of two subjects lead to one native symbol. -/
def Idl.Subject.SharesSymbol : Subject → Subject → Prop
  | .attribute first, .attribute second => SameUpToInitial first.name.toList second.name.toList
  | .method first _, .method second _ => SameUpToInitial first.toList second.toList
  | .attribute member, .method name _ => NamesGetter name.toList member.name.toList
  | .method name _, .attribute member => NamesGetter name.toList member.name.toList
  | _, _ => False

/-- A capitalized name differs from the name in its first character at most. -/
theorem exists_capitalize {name : String} (isIdentifier : IsIdentifier name) :
    ∃ first rest, name.toList = first :: rest ∧
      (capitalize name).toList = first.toUpper :: rest := by
  cases spelled : name.toList with
  | nil => exact absurd (String.toList_eq_nil_iff.mp spelled) isIdentifier.nonempty
  | cons first rest =>
    have isNameChar := isIdentifier.isName first (by rw [spelled]; exact List.mem_cons_self)
    refine ⟨first, rest, rfl, ?_⟩
    rw [capitalize, String.toList_ofList, spelled, Text.capitalize,
      Text.upperChar_of_lt (Idl.toNat_lt_of_isNameChar isNameChar)]
    rfl

/-- Two names have one capitalized form when they agree up to their first letter. -/
theorem capitalize_eq_iff {name other : String} (isIdentifier : IsIdentifier name)
    (otherIsIdentifier : IsIdentifier other) :
    capitalize name = capitalize other ↔ SameUpToInitial name.toList other.toList := by
  obtain ⟨first, rest, isName, isSymbol⟩ := exists_capitalize isIdentifier
  obtain ⟨second, otherRest, isOther, isOtherSymbol⟩ := exists_capitalize otherIsIdentifier
  rw [← String.toList_inj, isSymbol, isOtherSymbol, isName, isOther]
  simp only [SameUpToInitial, List.cons.injEq]
  constructor
  · rintro ⟨same, rfl⟩
    exact ⟨first, second, rest, ⟨rfl, rfl⟩, ⟨rfl, rfl⟩, same⟩
  · rintro ⟨_, _, _, ⟨rfl, rfl⟩, ⟨rfl, rfl⟩, same⟩
    exact ⟨same, rfl⟩

/-- An operation has the symbol of an attribute when it is named after its getter. -/
theorem getter_eq_iff {name attributeName : String} (isIdentifier : IsIdentifier name)
    (attributeIsIdentifier : IsIdentifier attributeName) :
    "Get" ++ capitalize attributeName = capitalize name ↔
      NamesGetter name.toList attributeName.toList := by
  obtain ⟨initial, rest, isName, isSymbol⟩ := exists_capitalize isIdentifier
  obtain ⟨first, others, isAttribute, isGetter⟩ := exists_capitalize attributeIsIdentifier
  rw [← String.toList_inj, String.toList_append, isSymbol, isGetter, isName, isAttribute]
  simp only [NamesGetter, List.cons.injEq]
  constructor
  · intro same
    obtain ⟨upper, tail⟩ := List.cons.inj same
    exact ⟨initial, first, others, ⟨rfl, rfl⟩, ⟨rfl, tail.symm⟩, upper.symm⟩
  · rintro ⟨_, _, _, ⟨rfl, rfl⟩, ⟨rfl, rfl⟩, upper⟩
    rw [upper]
    rfl

/-- Native symbols are the same exactly for members that share one by their names. -/
theorem sharesSymbol_iff {first second : Subject} {symbol other : String}
    (named : first.nativeName? = some symbol) (otherNamed : second.nativeName? = some other)
    (isIdentifier : IsIdentifier first.name) (otherIsIdentifier : IsIdentifier second.name) :
    symbol = other ↔ first.SharesSymbol second := by
  cases first with
  | constructor member => contradiction
  | «attribute» member =>
    obtain rfl := Option.some.inj named
    cases second with
    | constructor member => contradiction
    | «attribute» member =>
      obtain rfl := Option.some.inj otherNamed
      exact (String.append_right_inj _).trans (capitalize_eq_iff isIdentifier otherIsIdentifier)
    | method name member =>
      obtain rfl := Option.some.inj otherNamed
      exact getter_eq_iff otherIsIdentifier isIdentifier
  | method name member =>
    obtain rfl := Option.some.inj named
    cases second with
    | constructor member => contradiction
    | «attribute» member =>
      obtain rfl := Option.some.inj otherNamed
      exact eq_comm.trans (getter_eq_iff isIdentifier otherIsIdentifier)
    | method name member =>
      obtain rfl := Option.some.inj otherNamed
      exact capitalize_eq_iff isIdentifier otherIsIdentifier

/-! ### Links of two subjects -/

/-- The link to a definition is the place of the native symbol. -/
theorem defined_of_resolve {interface symbol : String} {subject : Subject}
    {symbols : ArtifactSymbols} {files : ArtifactFiles} {links : CrossReference}
    (named : subject.nativeName? = some symbol)
    (resolved : resolve interface subject symbols files = .ok links) :
    ∃ defined, symbols.implementation.methods.get? symbol = some defined ∧
      links.implementation = some (.at files.implementation defined) := by
  obtain ⟨declared, place, -, isBound, -⟩ := links_of_resolve named resolved
  rw [← Idl.Subject.boundPlace?_eq] at isBound
  obtain ⟨demand, rfl, -, bound, isDemand⟩ :=
    resolve_eq_demand interface symbols files named isBound
  rw [isDemand] at resolved
  obtain ⟨_, defined, -, isDefined, rfl⟩ := (Demand.resolve_eq_ok_iff bound).mp resolved
  exact ⟨defined, isDefined, rfl⟩

/-- A line is the first definition of one symbol only. -/
theorem Native.symbol_unique {className symbol other : String} {text : List Char}
    {place otherPlace : Place}
    (found : (readImplementation className text).methods.get? symbol = some place)
    (otherFound : (readImplementation className text).methods.get? other = some otherPlace)
    (sameLine : place.line = otherPlace.line) : symbol = other := by
  have first := (readImplementation_line?_eq_some_iff className symbol text place.line).mp
    (congrArg (Option.map Place.line) found)
  have second := (readImplementation_line?_eq_some_iff className other text otherPlace.line).mp
    (congrArg (Option.map Place.line) otherFound)
  obtain ⟨-, line, atLine, defines⟩ := first.1
  obtain ⟨-, otherLine, atOther, otherDefines⟩ := second.1
  have definedOn : (Owner.method symbol).DefinedOn className.toList line := defines
  rw [sameLine, atOther] at atLine
  rw [← Option.some.inj atLine] at definedOn
  exact Owner.method.inj (definedOn.unique otherDefines)

/-- Two resolved subjects are linked to one line exactly when they have one native symbol, and then
their whole links agree. Subjects of an accepted document have one symbol only where their names
tell. -/
theorem resolve_shares_definition {interface className symbol other : String}
    {first second : Subject} {text : List Char} {header : HeaderSymbols} {wrapper : WrapperSymbols}
    {files : ArtifactFiles} {firstLinks secondLinks : CrossReference}
    (named : first.nativeName? = some symbol) (otherNamed : second.nativeName? = some other)
    (resolved : resolve interface first
      ⟨header, Native.readImplementation className text, wrapper⟩ files = .ok firstLinks)
    (otherResolved : resolve interface second
      ⟨header, Native.readImplementation className text, wrapper⟩ files = .ok secondLinks) :
    (∃ place otherPlace : Place,
      firstLinks.implementation = some (.at files.implementation place) ∧
      secondLinks.implementation = some (.at files.implementation otherPlace) ∧
      (place.line = otherPlace.line ↔ symbol = other) ∧
      (symbol = other → place = otherPlace)) ∧
    ∀ idl document name, Idl.Document.parse idl = .ok document →
      first ∈ document.subjectsOf name → second ∈ document.subjectsOf name →
        (symbol = other ↔ first.SharesSymbol second) := by
  obtain ⟨place, found, link⟩ := defined_of_resolve named resolved
  obtain ⟨otherPlace, otherFound, otherLink⟩ := defined_of_resolve otherNamed otherResolved
  have samePlace (same : symbol = other) : place = otherPlace := by
    subst same
    exact Option.some.inj (found.symm.trans otherFound)
  constructor
  · refine ⟨place, otherPlace, link, otherLink, ⟨?_, ?_⟩, samePlace⟩
    · exact Native.symbol_unique found otherFound
    · exact fun same => congrArg Place.line (samePlace same)
  · intro idl document name accepted isFirst isSecond
    exact sharesSymbol_iff named otherNamed (Idl.isIdentifier_of_parse accepted isFirst)
      (Idl.isIdentifier_of_parse accepted isSecond)

/-- An interface with an attribute, an operation named after its getter, and another attribute. -/
def getterIdl : List Char :=
  "interface A \x7b attribute long a; void getA(); attribute long size; \x7d;".toList

def readA : Subject := .attribute { name := "a", type := "long" }

def callGetA : Subject := .method "getA" { name := some "getA", returnType := "void" }

def readSize : Subject := .attribute { name := "size", type := "long" }

def getterHeader : List Char := "  bool GetA(int x);\n  bool GetSize(int x);\n".toList

def getterImplementation : List Char :=
  "bool A::GetA(int x) \x7b\n\x7d\nbool A::GetSize(int x) \x7b\n\x7d\n".toList

def getterScript : String :=
  "class A \x7b\n  get a() \x7b\x7d\n  get size() \x7b\x7d\n  getA() \x7b\x7d\n\x7d\n"

def resolveGetter (wrapper : WrapperSymbols) (subject : Subject) :
    Except MissingSymbol CrossReference :=
  resolve "A" subject
    ⟨Native.readHeader Native.defaultReturnTypes getterHeader,
      Native.readImplementation "A" getterImplementation, wrapper⟩ (.conventional "A")

def linksOnLines (declared defined last bound : Nat) : CrossReference where
  declaration := some ⟨"src/A.h", declared, none⟩
  implementation := some ⟨"src/A.cpp", defined, some last⟩
  binding := some ⟨"lib/A.ts", bound, some bound⟩

/-- The example declares two attributes, and an operation named after the getter of one. -/
theorem exists_parse_getterIdl :
    ∃ document, Idl.Document.parse getterIdl = .ok document ∧
      document.subjectsOf "A" = [readA, callGetA, readSize] := by
  have accepted : (Idl.Document.parse getterIdl).toOption.map (·.subjectsOf "A") =
      some [readA, callGetA, readSize] := by
    decide +kernel
  cases parsed : Idl.Document.parse getterIdl with
  | error error =>
    rw [parsed] at accepted
    contradiction
  | ok document =>
    rw [parsed] at accepted
    exact ⟨document, rfl, Option.some.inj accepted⟩

/-- All three members of the example are resolved, two of them to one definition. -/
theorem exists_wrapper_getterScript :
    ∃ wrapper, WrapperSymbols.ofText? getterScript = some wrapper ∧
      [readA, callGetA, readSize].map (resolveGetter wrapper) =
        [.ok (linksOnLines 1 1 2 2), .ok (linksOnLines 1 1 2 4), .ok (linksOnLines 2 3 4 3)] := by
  have resolved : (WrapperSymbols.ofText? getterScript).map (fun wrapper =>
      [readA, callGetA, readSize].map (resolveGetter wrapper)) =
        some [.ok (linksOnLines 1 1 2 2), .ok (linksOnLines 1 1 2 4),
          .ok (linksOnLines 2 3 4 3)] := by
    decide +kernel
  exact Option.map_eq_some_iff.mp resolved

/-- The operation and the other attribute have definitions of their own. -/
theorem resolve_shares_definition_size :
    ∃ wrapper links otherLinks, resolveGetter wrapper callGetA = .ok links ∧
      resolveGetter wrapper readSize = .ok otherLinks ∧ ¬ callGetA.SharesSymbol readSize ∧
      ∃ place otherPlace : Place, place.line ≠ otherPlace.line ∧
        links.implementation = some (.at "src/A.cpp" place) ∧
        otherLinks.implementation = some (.at "src/A.cpp" otherPlace) := by
  obtain ⟨wrapper, -, all⟩ := exists_wrapper_getterScript
  obtain ⟨-, others⟩ := List.cons.inj all
  obtain ⟨resolved, others⟩ := List.cons.inj others
  obtain ⟨otherResolved, -⟩ := List.cons.inj others
  have named : callGetA.nativeName? = some "GetA" := by decide +kernel
  have otherNamed : readSize.nativeName? = some "GetSize" := by decide +kernel
  obtain ⟨⟨place, otherPlace, link, otherLink, sameLine, -⟩, shares⟩ :=
    resolve_shares_definition named otherNamed resolved otherResolved
  obtain ⟨document, accepted, subjects⟩ := exists_parse_getterIdl
  have apart := shares getterIdl document "A" accepted (by simp [subjects]) (by simp [subjects])
  exact ⟨wrapper, _, _, resolved, otherResolved, fun same => absurd (apart.mpr same) (by decide),
    place, otherPlace, fun same => absurd (sameLine.mp same) (by decide), link, otherLink⟩

/-- An attribute and the operation named after its getter are linked to one definition. -/
theorem resolve_shares_getter :
    (∃ document, Idl.Document.parse getterIdl = .ok document ∧
      document.subjectsOf "A" = [readA, callGetA, readSize]) ∧
    readA.name ≠ callGetA.name ∧
    ∃ wrapper, WrapperSymbols.ofText? getterScript = some wrapper ∧
      resolveGetter wrapper readA = .ok (linksOnLines 1 1 2 2) ∧
      resolveGetter wrapper callGetA = .ok (linksOnLines 1 1 2 4) := by
  obtain ⟨wrapper, declared, all⟩ := exists_wrapper_getterScript
  obtain ⟨resolved, others⟩ := List.cons.inj all
  exact ⟨exists_parse_getterIdl, by decide +kernel, wrapper, declared, resolved,
    (List.cons.inj others).1⟩

end InterfaceAudit
