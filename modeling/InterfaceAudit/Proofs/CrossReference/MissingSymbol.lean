import InterfaceAudit.Proofs.CrossReference.Staticness

/-!
Missing symbols.
A member needs one symbol of each artifact. It is resolved exactly when all of them are listed, and
else the first one that is not is reported. What is reported is what has to be added: the needs that
are left are those behind it, and no other symbol matters.
-/

namespace InterfaceAudit

open Idl (Subject)
open Script (MethodKind)

/-! ### Listings of symbols -/

/-- The tables in which the artifacts of an interface list their symbols. -/
inductive Listing where
  | declarations (isStatic : Bool)
  | definitions
  | members (kind : MethodKind)
  deriving DecidableEq, Repr

/-- A symbol is known by its listing and its name. -/
structure SymbolKey where
  listing : Listing
  name : String
  deriving DecidableEq, Repr

namespace ArtifactSymbols

/-- Where a symbol stands. -/
def place? (symbols : ArtifactSymbols) (key : SymbolKey) : Option Place :=
  match key.listing with
  | .declarations isStatic => (symbols.header.table isStatic).get? key.name
  | .definitions => symbols.implementation.methods.get? key.name
  | .members kind => symbols.wrapper.place? key.name kind

/-- One more symbol is listed; a symbol that is listed already stays where it is. -/
def add (symbols : ArtifactSymbols) (key : SymbolKey) (place : Place) : ArtifactSymbols :=
  match key.listing with
  | .declarations true =>
    { symbols with
      header := { symbols.header with
        staticMethods := symbols.header.staticMethods.insertNew key.name place } }
  | .declarations false =>
    { symbols with
      header := { symbols.header with
        methods := symbols.header.methods.insertNew key.name place } }
  | .definitions =>
    { symbols with
      implementation := { symbols.implementation with
        methods := symbols.implementation.methods.insertNew key.name place } }
  | .members kind => { symbols with wrapper := symbols.wrapper.record key.name place kind }

/-- A table knows a key unless the key is one of constructors, which have a place of their own. -/
theorem place?_add (symbols : ArtifactSymbols) (added key : SymbolKey) (place : Place)
    (tabled : key.listing ≠ .members .constructor) :
    (symbols.add added place).place? key =
      (symbols.place? key).or (if added = key then some place else none) := by
  obtain ⟨addedListing, addedName⟩ := added
  obtain ⟨listing, name⟩ := key
  cases addedListing with
  | declarations addedStatic =>
    cases listing with
    | declarations isStatic =>
      cases addedStatic <;> cases isStatic <;>
        simp [add, place?, HeaderSymbols.table, Table.get?_insertNew]
    | definitions | members kind => cases addedStatic <;> simp [add, place?]
  | definitions =>
    cases listing with
    | declarations isStatic => simp [add, place?]
    | definitions => simp [add, place?, Table.get?_insertNew]
    | members kind => simp [add, place?]
  | members addedKind =>
    cases listing with
    | declarations isStatic | definitions => simp [add, place?]
    | members kind =>
      have notConstructor : kind ≠ .constructor := fun same => tabled (same ▸ rfl)
      simp [add, place?, WrapperSymbols.record_place?, notConstructor]

end ArtifactSymbols

/-! ### Needs of members -/

/-- A symbol that a member needs of an artifact, and how a report shows it. -/
structure Need where
  artifact : Artifact
  key : SymbolKey
  shown : String
  deriving DecidableEq, Repr

/-- The word that a report puts in front of the name of a method. -/
def Script.MethodKind.mark : Script.MethodKind → String
  | .getter => "get "
  | .setter => "set "
  | .static => "static "
  | .constructor | .plain => ""

namespace Idl.Subject

/-- What a report calls a subject. -/
def kindName : Subject → String
  | .attribute _ => "attribute"
  | .method _ member => if member.isStatic then "static-method" else "method"
  | .constructor _ => "constructor"

/-- What a subject with a native name needs, in the order in which the artifacts are consulted. -/
def needs (interface symbol : String) (subject : Subject) : List Need :=
  [⟨.header, ⟨.declarations subject.isStaticMethod, symbol⟩, symbol⟩,
    ⟨.implementation, ⟨.definitions, symbol⟩, interface ++ "::" ++ symbol⟩,
    ⟨.wrapper, ⟨.members subject.boundKind, subject.name⟩,
      subject.boundKind.mark ++ subject.name ++ "()"⟩]

/-- The links of a subject to the places of its symbols. -/
def linked (symbol : String) (symbols : ArtifactSymbols) (files : ArtifactFiles)
    (subject : Subject) : CrossReference where
  declaration := (symbols.place? ⟨.declarations subject.isStaticMethod, symbol⟩).map fun place =>
    ⟨files.header, place.line, none⟩
  implementation := (symbols.place? ⟨.definitions, symbol⟩).map (.at files.implementation)
  binding :=
    (symbols.place? ⟨.members subject.boundKind, subject.name⟩).map (.at files.wrapper)

/-- A member that needs a native symbol is no constructor. -/
theorem boundKind_ne_constructor {subject : Subject} {symbol : String}
    (named : subject.nativeName? = some symbol) : subject.boundKind ≠ .constructor := by
  cases subject with
  | «attribute» member => nofun
  | method name member => cases isStatic : member.isStatic <;> simp [boundKind, isStatic]
  | constructor member => contradiction

end Idl.Subject

/-- The report of a need that is not met names the artifact, its path and the symbol. -/
def Need.report (interface : String) (subject : Subject) (files : ArtifactFiles) (need : Need) :
    MissingSymbol where
  interface
  member := subject.name
  memberKind := subject.kindName
  expectedArtifact := files.path need.artifact
  artifact := need.artifact
  expectedSymbol := need.shown

/-- The needs that the symbols do not meet. -/
def ArtifactSymbols.unmet (symbols : ArtifactSymbols) (needs : List Need) : List Need :=
  needs.filter fun need => (symbols.place? need.key).isNone

variable (interface : String) {symbol : String} {subject : Subject} (files : ArtifactFiles)

/-- What is demanded for a subject is what it needs. -/
theorem exists_demand (named : subject.nativeName? = some symbol) (symbols : ArtifactSymbols) :
    ∃ demand : Demand, demand.kind = subject.kindName ∧ demand.native = symbol ∧
      demand.bound = subject.boundKind.mark ++ subject.name ++ "()" ∧
      demand.headerTable = symbols.header.table subject.isStaticMethod ∧
      demand.wrapperTable.get? subject.name =
        symbols.wrapper.place? subject.name subject.boundKind ∧
      resolve interface subject symbols files =
        demand.resolve interface subject.name symbols.implementation.methods files := by
  cases subject with
  | «attribute» member =>
    exact ⟨.ofAttribute symbols member.name, rfl, Option.some.inj named, rfl, rfl, rfl, rfl⟩
  | method name member =>
    refine ⟨.ofMethod symbols name member.isStatic, ?_⟩
    simp only [Idl.Subject.kindName, Idl.Subject.boundKind, Idl.Subject.isStaticMethod]
    cases isStatic : member.isStatic with
    | false =>
      refine ⟨rfl, Option.some.inj named, ?_, rfl, rfl, ?_⟩
      · simp [Demand.ofMethod, MethodKind.mark, Subject.name]
      · simp [resolve, isStatic, Subject.name]
    | true =>
      refine ⟨rfl, Option.some.inj named, rfl, rfl, rfl, ?_⟩
      simp [resolve, isStatic, Subject.name]
  | constructor member => contradiction

/-- A member is resolved when all of its needs are met; else the first unmet one is reported. -/
theorem resolve_eq_unmet (named : subject.nativeName? = some symbol) (symbols : ArtifactSymbols) :
    resolve interface subject symbols files =
      match symbols.unmet (subject.needs interface symbol) with
      | [] => .ok (subject.linked symbol symbols files)
      | need :: _ => .error (need.report interface subject files) := by
  obtain ⟨demand, kind, rfl, bound, headerTable, wrapperTable, resolved⟩ :=
    exists_demand interface files named symbols
  rw [resolved, Demand.resolve, headerTable, wrapperTable, kind, bound]
  cases declared : (symbols.header.table subject.isStaticMethod).get? demand.native with
  | none =>
    simp [ArtifactSymbols.unmet, Idl.Subject.needs, ArtifactSymbols.place?, Need.report, declared]
  | some declaration =>
    cases defined : symbols.implementation.methods.get? demand.native with
    | none =>
      simp [ArtifactSymbols.unmet, Idl.Subject.needs, ArtifactSymbols.place?, Need.report, declared,
        defined]
    | some definition =>
      cases member : symbols.wrapper.place? subject.name subject.boundKind with
      | none =>
        simp [ArtifactSymbols.unmet, Idl.Subject.needs, ArtifactSymbols.place?, Need.report,
          declared, defined, member]
      | some place =>
        simp [ArtifactSymbols.unmet, Idl.Subject.needs, ArtifactSymbols.place?, Idl.Subject.linked,
          declared, defined, member]

/-- Only the symbols that a member needs have a say in its resolution. -/
theorem resolve_congr (named : subject.nativeName? = some symbol) {symbols others : ArtifactSymbols}
    (same : ∀ need ∈ subject.needs interface symbol,
      others.place? need.key = symbols.place? need.key) :
    resolve interface subject others files = resolve interface subject symbols files := by
  have sameUnmet : others.unmet (subject.needs interface symbol) =
      symbols.unmet (subject.needs interface symbol) :=
    List.filter_congr fun need member => by rw [same need member]
  have sameLinks : subject.linked symbol others files = subject.linked symbol symbols files := by
    simp only [Idl.Subject.needs, List.forall_mem_cons] at same
    obtain ⟨declared, defined, member, -⟩ := same
    simp only [Idl.Subject.linked, declared, defined, member]
  rw [resolve_eq_unmet interface files named, resolve_eq_unmet interface files named, sameUnmet,
    sameLinks]

/-! ### Additions -/

namespace ArtifactSymbols

/-- Adding a symbol changes no other symbol of a table. -/
theorem place?_add_of_ne (symbols : ArtifactSymbols) {added key : SymbolKey} (place : Place)
    (tabled : key.listing ≠ .members .constructor) (apart : added ≠ key) :
    (symbols.add added place).place? key = symbols.place? key := by
  rw [place?_add symbols added key place tabled, if_neg apart, Option.or_none]

/-- Adding the first unmet need leaves the others. -/
theorem unmet_add {symbols : ArtifactSymbols} {needs others : List Need} {need : Need}
    (tabled : ∀ need ∈ needs, need.key.listing ≠ .members .constructor)
    (distinct : (needs.map Need.key).Nodup) (first : symbols.unmet needs = need :: others)
    (place : Place) : (symbols.add need.key place).unmet needs = others := by
  have kept : (symbols.add need.key place).unmet needs =
      (symbols.unmet needs).filter fun other => decide (need.key ≠ other.key) := by
    unfold unmet
    rw [List.filter_filter]
    apply List.filter_congr
    intro other member
    rw [place?_add symbols need.key other.key place (tabled other member)]
    by_cases same : need.key = other.key <;> simp [same]
  have apart : (symbols.unmet needs).Pairwise fun one another => one.key ≠ another.key :=
    (List.pairwise_map.mp distinct).sublist List.filter_sublist
  rw [first, List.pairwise_cons] at apart
  rw [kept, first, List.filter_cons_of_neg (by simp), List.filter_eq_self]
  intro other member
  exact decide_eq_true (apart.1 other member)

end ArtifactSymbols

/-- All symbols that a member needs are kept in tables. -/
theorem Idl.Subject.needs_tabled (named : subject.nativeName? = some symbol) :
    ∀ need ∈ subject.needs interface symbol, need.key.listing ≠ .members .constructor := by
  have other := boundKind_ne_constructor named
  simp [needs, other]

theorem Idl.Subject.nodup_needs (interface symbol : String) (subject : Subject) :
    ((subject.needs interface symbol).map Need.key).Nodup := by
  simp [needs]

/-- A member is mended by so many additions of what is reported, wherever the symbols are put. -/
inductive MendedAfter (interface symbol : String) (subject : Subject) (files : ArtifactFiles) :
    Nat → ArtifactSymbols → Prop where
  | resolved {symbols : ArtifactSymbols} {links : CrossReference}
      (found : resolve interface subject symbols files = .ok links) :
      MendedAfter interface symbol subject files 0 symbols
  | added {symbols : ArtifactSymbols} {count : Nat} {need : Need}
      (needed : need ∈ subject.needs interface symbol)
      (reported : resolve interface subject symbols files =
        .error (need.report interface subject files))
      (mended : ∀ place, MendedAfter interface symbol subject files count
        (symbols.add need.key place)) :
      MendedAfter interface symbol subject files (count + 1) symbols

/-- Each unmet need takes one addition. The induction is on the needs that are left. -/
theorem mendedAfter_unmet (named : subject.nativeName? = some symbol) {left : List Need}
    {symbols : ArtifactSymbols} (unmet : symbols.unmet (subject.needs interface symbol) = left) :
    MendedAfter interface symbol subject files left.length symbols := by
  have result := resolve_eq_unmet interface files named symbols
  rw [unmet] at result
  induction left generalizing symbols with
  | nil => exact .resolved result
  | cons need left inductionHypothesis =>
    have needed : need ∈ subject.needs interface symbol := by
      have member : need ∈ symbols.unmet (subject.needs interface symbol) := by simp [unmet]
      exact (List.mem_filter.mp member).1
    refine .added needed result fun place => ?_
    have rest := ArtifactSymbols.unmet_add (Idl.Subject.needs_tabled interface named)
      (Idl.Subject.nodup_needs interface symbol subject) unmet place
    apply inductionHypothesis rest
    rw [resolve_eq_unmet interface files named, rest]

/-- Symbols are added one after the other. -/
def ArtifactSymbols.addAll (symbols : ArtifactSymbols) (additions : List (SymbolKey × Place)) :
    ArtifactSymbols :=
  additions.foldl (fun symbols addition => symbols.add addition.1 addition.2) symbols

/-- Adding other symbols changes no symbol of a table. -/
theorem ArtifactSymbols.place?_addAll_of_ne (symbols : ArtifactSymbols)
    {additions : List (SymbolKey × Place)} {key : SymbolKey}
    (tabled : key.listing ≠ .members .constructor)
    (apart : ∀ addition ∈ additions, addition.1 ≠ key) :
    (symbols.addAll additions).place? key = symbols.place? key := by
  induction additions generalizing symbols with
  | nil => rfl
  | cons addition additions inductionHypothesis =>
    obtain ⟨first, others⟩ := List.forall_mem_cons.mp apart
    exact (inductionHypothesis _ others).trans (symbols.place?_add_of_ne _ tabled first)

/-! ### Reports -/

/-- A member fails exactly when one of its needs is not listed. -/
theorem resolve_error_iff (named : subject.nativeName? = some symbol) (symbols : ArtifactSymbols) :
    (∃ missing, resolve interface subject symbols files = .error missing) ↔
      ∃ need ∈ subject.needs interface symbol, symbols.place? need.key = none := by
  have lacking : (∃ need ∈ subject.needs interface symbol, symbols.place? need.key = none) ↔
      symbols.unmet (subject.needs interface symbol) ≠ [] := by
    simp [ArtifactSymbols.unmet, List.filter_eq_nil_iff]
  rw [lacking, resolve_eq_unmet interface files named]
  cases symbols.unmet (subject.needs interface symbol) with
  | nil => simp
  | cons need others => simp

/-- A report is about the first unmet need, and the report after its addition about a later one. -/
theorem exists_need_of_error (named : subject.nativeName? = some symbol)
    {symbols : ArtifactSymbols} {missing : MissingSymbol}
    (reported : resolve interface subject symbols files = .error missing) :
    ∃ earlier need later, subject.needs interface symbol = earlier ++ need :: later ∧
      (∀ other ∈ earlier, (symbols.place? other.key).isSome) ∧
      symbols.place? need.key = none ∧ missing = need.report interface subject files ∧
      ∀ place, (∃ links, resolve interface subject (symbols.add need.key place) files =
          .ok links) ∨
        ∃ next ∈ later, resolve interface subject (symbols.add need.key place) files =
          .error (next.report interface subject files) := by
  rw [resolve_eq_unmet interface files named] at reported
  cases unmet : symbols.unmet (subject.needs interface symbol) with
  | nil =>
    rw [unmet] at reported
    contradiction
  | cons need others =>
    rw [unmet] at reported
    obtain ⟨earlier, later, split, met, lacking, left⟩ := List.filter_eq_cons_iff.mp unmet
    refine ⟨earlier, need, later, split, ?_, Option.isNone_iff_eq_none.mp lacking,
      (Except.error.inj reported).symm, fun place => ?_⟩
    · intro other member
      simpa [Option.isSome_iff_ne_none] using met other member
    · have rest := ArtifactSymbols.unmet_add (Idl.Subject.needs_tabled interface named)
        (Idl.Subject.nodup_needs interface symbol subject) unmet place
      rw [resolve_eq_unmet interface files named, rest]
      cases others with
      | nil => exact .inl ⟨_, rfl⟩
      | cons next others =>
        have behind : next ∈ later.filter fun need => (symbols.place? need.key).isNone := by
          simp [left]
        exact .inr ⟨next, (List.mem_filter.mp behind).1, rfl⟩

/-- Symbols that a member does not need have no influence on it. -/
theorem resolve_addAll (named : subject.nativeName? = some symbol) (symbols : ArtifactSymbols)
    {additions : List (SymbolKey × Place)}
    (apart : ∀ addition ∈ additions, ∀ need ∈ subject.needs interface symbol,
      addition.1 ≠ need.key) :
    resolve interface subject (symbols.addAll additions) files =
      resolve interface subject symbols files := by
  apply resolve_congr interface files named
  intro need member
  have tabled := Idl.Subject.needs_tabled interface named need member
  exact symbols.place?_addAll_of_ne tabled fun addition added => apart addition added need member

/-- A member is reported exactly when one of its needs is unmet. The report names the first such
need with its artifact; once that symbol is added, the member is resolved or a need behind it is
reported, so three additions are enough. Other symbols change neither reports nor links, and a
constructor is never reported. -/
theorem resolve_reports_unmet (named : subject.nativeName? = some symbol)
    (symbols : ArtifactSymbols) :
    let needs := subject.needs interface symbol
    ((∃ missing, resolve interface subject symbols files = .error missing) ↔
        ∃ need ∈ needs, symbols.place? need.key = none) ∧
      (∀ missing, resolve interface subject symbols files = .error missing →
        ∃ earlier need later, needs = earlier ++ need :: later ∧
          (∀ other ∈ earlier, (symbols.place? other.key).isSome) ∧
          symbols.place? need.key = none ∧ missing = need.report interface subject files ∧
          ∀ place, (∃ links,
              resolve interface subject (symbols.add need.key place) files = .ok links) ∨
            ∃ next ∈ later, resolve interface subject (symbols.add need.key place) files =
              .error (next.report interface subject files)) ∧
      (∃ count ≤ 3, MendedAfter interface symbol subject files count symbols) ∧
      (∀ additions : List (SymbolKey × Place),
        (∀ addition ∈ additions, ∀ need ∈ needs, addition.1 ≠ need.key) →
        resolve interface subject (symbols.addAll additions) files =
          resolve interface subject symbols files) ∧
      ∀ member, ∃ links, resolve interface (.constructor member) symbols files = .ok links := by
  have unmetBound : (symbols.unmet (subject.needs interface symbol)).length ≤ 3 :=
    List.length_filter_le ..
  exact ⟨resolve_error_iff interface files named symbols,
    fun missing => exists_need_of_error interface files named,
    ⟨_, unmetBound, mendedAfter_unmet interface files named rfl⟩,
    fun additions => resolve_addAll interface files named symbols, fun member => ⟨_, rfl⟩⟩

/-- Symbols of an interface whose method is an instance method in the header and in the wrapper. -/
def instanceRun : ArtifactSymbols where
  header := ⟨"A", Table.empty.insertNew "Run" ⟨3, none⟩, .empty⟩
  implementation := definedRun
  wrapper := runWrapper

/-- A static method is reported with the header first. More instance methods change nothing, and the
report leads to its two missing symbols. -/
theorem resolve_reports_unmet_staticRun :
    let resolved (symbols : ArtifactSymbols) := resolve "A" staticRun symbols (.conventional "A")
    resolved (instanceRun.addAll
        [(⟨.declarations false, "Stop"⟩, ⟨9, none⟩), (⟨.members .getter, "run"⟩, ⟨7, none⟩)]) =
        .error ⟨"A", "run", "static-method", "src/A.h", .header, "Run"⟩ ∧
      ∃ count ≤ 3, MendedAfter "A" "Run" staticRun (.conventional "A") count instanceRun := by
  have named : staticRun.nativeName? = some "Run" := by decide +kernel
  have reported : resolve "A" staticRun instanceRun (.conventional "A") =
      .error ⟨"A", "run", "static-method", "src/A.h", .header, "Run"⟩ := by
    decide +kernel
  obtain ⟨-, -, mended, others, -⟩ :=
    resolve_reports_unmet "A" (.conventional "A") named instanceRun
  exact ⟨(others _ (by decide +kernel)).trans reported, mended⟩

end InterfaceAudit
