import InterfaceAudit.Proofs.Idl.Concatenation

/-!
Names of interfaces and of their members.
Whatever a document declares as an interface has a name token as its name, and so have its members,
so names are never empty and have no slashes.
-/

namespace InterfaceAudit.Idl

open Grammar
open Grammar.Expression (skipThen thenSkip firstOf)

variable {First Second Value : Type}

/-- Whatever the phrase reads has the property. -/
def Yields (property : Value → Prop) (phrase : Phrase Value) : Prop :=
  ∀ ⦃text value rest⦄, grammar.read phrase text = some (value, rest) → property value

namespace Yields

variable {property : Value → Prop} {firstProperty : First → Prop} {secondProperty : Second → Prop}

/-- A property of the built values follows from one of the values they are built from. -/
theorem map {inner : Phrase First} (build : First → Value)
    (holds : ∀ value, firstProperty value → property (build value))
    (yields : Yields firstProperty inner) : Yields property (.map build inner) := by
  intro text value rest found
  obtain ⟨innerValue, innerFound, rfl⟩ := (read_map_eq_some grammar text).mp found
  exact holds innerValue (yields innerFound)

/-- Taking the source of a phrase along leaves its value as it is. -/
theorem source {inner : Phrase First} (yields : Yields firstProperty inner) :
    Yields (fun pair => firstProperty pair.2) (.source inner) := by
  intro text value rest found
  exact yields ((read_source_eq_some grammar text).mp found).1

/-- What the first part of a sequence yields is kept in the pair. -/
theorem first {first : Phrase First} (second : Phrase Second)
    (yields : Yields firstProperty first) :
    Yields (fun pair => firstProperty pair.1) (.seq first second) := by
  intro text value rest found
  obtain ⟨middle, firstFound, -⟩ := (read_seq_eq_some grammar text).mp found
  exact yields firstFound

/-- What the second part of a sequence yields is kept in the pair. -/
theorem second (first : Phrase First) {second : Phrase Second}
    (yields : Yields secondProperty second) :
    Yields (fun pair => secondProperty pair.2) (.seq first second) := by
  intro text value rest found
  obtain ⟨middle, -, secondFound⟩ := (read_seq_eq_some grammar text).mp found
  exact yields secondFound

/-- A property that both alternatives yield holds whichever of them is read. -/
theorem choice {first second : Phrase Value} (firstYields : Yields property first)
    (secondYields : Yields property second) : Yields property (.choice first second) := by
  intro text value rest found
  rcases (read_choice_eq_some grammar text).mp found with firstFound | ⟨-, secondFound⟩
  · exact firstYields firstFound
  · exact secondYields secondFound

/-- A phrase that may be missing yields the property where it is there. -/
theorem optional {inner : Phrase First} (yields : Yields firstProperty inner) :
    Yields (fun found => ∀ value ∈ found, firstProperty value) (.optional inner) := by
  intro text found rest read value present
  rw [read_optional, Option.some_inj] at read
  split at read
  · next inside =>
    obtain ⟨rfl, -⟩ := Prod.mk.inj read
    exact yields (Option.some.inj present ▸ inside)
  · obtain ⟨rfl, -⟩ := Prod.mk.inj read
    contradiction

/-- Every item of a repetition has the property of its phrase, by induction over the items read. -/
theorem many {item : Phrase First} (yields : Yields firstProperty item) :
    Yields (fun values => ∀ value ∈ values, firstProperty value) (.many item) := by
  intro text values rest read
  rw [read_many, Option.some_inj] at read
  have item (text : List Char) : ∀ value ∈ (readMany (grammar.read item) text).1,
      firstProperty value := by
    induction text using readMany.induct (grammar.read item) with
    | case1 text value rest found shorter _ _ _ inductionHypothesis =>
      rw [readMany_of_some found shorter]
      exact List.forall_mem_cons.mpr ⟨yields found, inductionHypothesis⟩
    | case2 text value rest found notShorter =>
      rw [readMany, found]
      simp only [notShorter, if_false]
      exact List.forall_mem_nil _
    | case3 text missing =>
      rw [readMany_of_none missing]
      exact List.forall_mem_nil _
  obtain rfl : (readMany (grammar.read _) text).1 = values := congrArg Prod.fst read
  exact item text

/-- A property of every value that can be built needs no reading. -/
theorem of_forall (inner : Phrase First) (build : First → Value)
    (holds : ∀ value, property (build value)) : Yields property (.map build inner) :=
  @map _ _ _ (fun _ => True) inner build (fun value _ => holds value) fun _ _ _ _ => trivial

end Yields

/-- All characters of the text may stand in a name. -/
def IsName (name : String) : Prop := ∀ c ∈ name.toList, isNameChar c = true

/-- A name that is written out is not empty. -/
structure IsIdentifier (name : String) : Prop where
  nonempty : name ≠ ""
  isName : IsName name

/-- What the name token takes is not empty and has name characters only. -/
theorem isIdentifier_of_scanName {text taken rest : List Char}
    (found : scanName text = some (taken, rest)) : IsIdentifier (String.ofList taken) := by
  have split := (scanName_inert_of_nameChars fun _ => id).splits found
  refine ⟨fun empty => split.taken_ne_nil ?_, ?_⟩
  · simpa using congrArg String.toList empty
  · rw [IsName, String.toList_ofList]
    exact split.inert

/-- Names of a document are identifiers. -/
theorem name_yields : Yields IsIdentifier name := by
  intro text value rest found
  obtain ⟨taken, scanned, rfl⟩ := (read_map_eq_some grammar text).mp found
  exact isIdentifier_of_scanName scanned

theorem spaced_yields {property : Value → Prop} {phrase : Phrase Value}
    (yields : Yields property phrase) : Yields property (spaced phrase) :=
  (yields.first blank).map Prod.fst fun _ holds => holds

theorem thenSkip_yields {property : Value → Prop} {phrase : Phrase Value}
    (yields : Yields property phrase) (second : Phrase Second) :
    Yields property (thenSkip phrase second) :=
  (yields.first second).map Prod.fst fun _ holds => holds

theorem skipThen_yields {property : Value → Prop} (first : Phrase First) {phrase : Phrase Value}
    (yields : Yields property phrase) : Yields property (skipThen first phrase) :=
  (yields.second first).map Prod.snd fun _ holds => holds

/-- The attributes in front of a phrase do not touch what it yields. -/
theorem attributed_yields {property : Value → Prop} {phrase : Phrase Value}
    (yields : Yields property phrase) : Yields (fun pair => property pair.2) (attributed phrase) :=
  (yields.second _).map _ fun _ holds => holds

/-! ### Members -/

/-- Every subject that a member is has a name token as its name. -/
def Member.IsNamed (member : Member) : Prop :=
  ∀ subject, member.subject? = some subject → IsIdentifier subject.name

/-- Extended attributes do not change how a member is called. -/
theorem Member.isNamed_withExtAttrs {member : Member} (extAttrs : List String)
    (named : member.IsNamed) : (member.withExtAttrs extAttrs).IsNamed := by
  cases member with
  | «attribute» member =>
    rintro _ ⟨rfl⟩
    exact named (.attribute member) rfl
  | operation member =>
    intro subject isSubject
    obtain ⟨name, isName, rfl⟩ := Option.map_eq_some_iff.mp isSubject
    exact named (.method name member) (Option.map_eq_some_iff.mpr ⟨name, isName, rfl⟩)
  | constructor member =>
    rintro _ ⟨rfl⟩
    exact named (.constructor member) rfl
  | constant | collection => exact nofun

/-- The name that constructors are recorded under is an identifier as well. -/
theorem isIdentifier_constructor : IsIdentifier "constructor" :=
  ⟨by decide, List.all_eq_true.mp (by decide +kernel)⟩

/-- An attribute is called by a name token. -/
theorem attributeMember_yields : Yields Member.IsNamed attributeMember := by
  have named : Yields IsIdentifier (thenSkip (spaced name) semicolon) :=
    thenSkip_yields (spaced_yields name_yields) semicolon
  refine (((skipThen_yields _ (named.second _)).second _).map _ ?_)
  rintro ⟨qualifiers, type, name⟩ isIdentifier _ ⟨rfl⟩
  exact isIdentifier

/-- An operation is called by a name token. -/
theorem operationMember_yields : Yields Member.IsNamed operationMember := by
  refine ((((spaced_yields name_yields.optional).first _).second _).second _).map _ ?_
  rintro ⟨qualifiers, type, name, parameters⟩ isIdentifier subject isSubject
  obtain ⟨name, rfl, rfl⟩ := Option.map_eq_some_iff.mp isSubject
  exact isIdentifier name rfl

/-- Whatever a member statement declares is called by an identifier, or by nothing. -/
theorem member_yields : Yields (fun found => ∀ member ∈ found, Member.IsNamed member) member := by
  have constructors : Yields Member.IsNamed constructorMember :=
    .of_forall _ _ fun parameters subject isSubject =>
      Option.some.inj isSubject ▸ isIdentifier_constructor
  have others : Yields Member.IsNamed (firstOf constructorMember
      [constantMember, iterableMember, maplikeMember, setlikeMember, attributeMember,
        operationMember]) :=
    constructors.choice (.choice (.of_forall _ _ fun _ => nofun) (.choice
      (.of_forall _ _ fun _ => nofun) (.choice (.of_forall _ _ fun _ => nofun) (.choice
        (.of_forall _ _ fun _ => nofun) (attributeMember_yields.choice operationMember_yields)))))
  have alternatives : Yields (fun found => ∀ member ∈ found, Member.IsNamed member)
      (.choice (.map some _) bareStringifier) :=
    (others.map some fun member named _ same => Option.some.inj same ▸ named).choice
      (.of_forall _ _ fun _ => nofun)
  refine (attributed_yields alternatives).map _ ?_
  rintro ⟨extAttrs, found⟩ named member isMember
  obtain ⟨inner, rfl, rfl⟩ := Option.map_eq_some_iff.mp isMember
  exact Member.isNamed_withExtAttrs extAttrs (named inner rfl)

/-- All members of a body are called by identifiers. -/
theorem members_yields : Yields (fun members => ∀ member ∈ members, member.IsNamed) members := by
  have content : Yields (fun values => ∀ value ∈ values, ∀ member ∈ value, Member.IsNamed member)
      (body (.many (spaced member))) :=
    skipThen_yields _ (thenSkip_yields (spaced_yields member_yields).many _)
  refine content.map _ fun values named member isMember => ?_
  obtain ⟨value, inValues, inValue⟩ := List.mem_filterMap.mp isMember
  exact named value inValues member inValue

/-! ### Definitions -/

/-- An interface has a name token as its name, and its members are named. -/
structure Interface.IsNamed (interface : Interface) : Prop where
  isName : IsName interface.name
  members : ∀ member ∈ interface.members, member.IsNamed

def NamesInterface (definition : Definition) : Prop :=
  ∀ interface, definition = .interface interface → interface.IsNamed

/-- Naming an interface is about the interface of the definition. -/
theorem namesInterface_of_isNamed {interface : Interface} (named : interface.IsNamed) :
    NamesInterface (.interface interface) := by
  rintro other ⟨rfl⟩
  exact named

/-- A definition that is no interface has nothing to name. -/
theorem namesInterface_of_other {definition : Definition}
    (other : ∀ interface, definition ≠ .interface interface) : NamesInterface definition :=
  fun interface same => absurd same (other interface)

/-- The span of a definition is not part of its names. -/
theorem namesInterface_withSpan {definition : Definition} (span : Option Span)
    (names : NamesInterface definition) : NamesInterface (definition.withSpan span) := by
  cases definition with
  | interface interface =>
    exact namesInterface_of_isNamed ⟨(names interface rfl).isName, (names interface rfl).members⟩
  | dictionary | enumeration | callback | typedef | inclusion =>
    exact namesInterface_of_other nofun

/-- The attributes of a definition are not part of its names. -/
theorem namesInterface_withExtAttrs {definition : Definition} (extAttrs : List String)
    (names : NamesInterface definition) : NamesInterface (definition.withExtAttrs extAttrs) := by
  cases definition with
  | interface interface =>
    exact namesInterface_of_isNamed ⟨(names interface rfl).isName, (names interface rfl).members⟩
  | dictionary | enumeration | callback | typedef | inclusion =>
    exact namesInterface_of_other nofun

/-- Marking a definition as partial keeps the names that it declares. -/
theorem namesInterface_asPartial {definition : Definition} (names : NamesInterface definition) :
    NamesInterface definition.asPartial := by
  cases definition with
  | interface interface =>
    exact namesInterface_of_isNamed ⟨(names interface rfl).isName, (names interface rfl).members⟩
  | dictionary | enumeration | callback | typedef | inclusion =>
    exact namesInterface_of_other nofun

/-- A name stands in front of what holds the members. -/
theorem named_yields {property : Value → Prop} {content : Phrase Value}
    (yields : Yields property content) :
    Yields (fun pair => IsIdentifier pair.1 ∧ property pair.2) (.seq (spaced name) content) := by
  intro text value rest found
  obtain ⟨middle, nameFound, contentFound⟩ := (read_seq_eq_some grammar text).mp found
  exact ⟨spaced_yields name_yields nameFound, yields contentFound⟩

theorem callbackInterface_yields : Yields NamesInterface callbackInterface :=
  (skipThen_yields _ (named_yields members_yields)).map _ fun _ named =>
    namesInterface_of_isNamed ⟨named.1.isName, named.2⟩

/-- A mixin is recorded as an interface, so its members are named as well. -/
theorem mixin_yields : Yields NamesInterface mixin :=
  (skipThen_yields _ (named_yields members_yields)).map _ fun _ named =>
    namesInterface_of_isNamed ⟨named.1.isName, named.2⟩

/-- The members of an interface definition are named by identifiers. -/
theorem interface_yields : Yields NamesInterface interface :=
  (skipThen_yields _ (named_yields (members_yields.second _))).map _ fun _ named =>
    namesInterface_of_isNamed ⟨named.1.isName, named.2⟩

theorem namespaceDefinition_yields : Yields NamesInterface namespaceDefinition :=
  (skipThen_yields _ (named_yields members_yields)).map _ fun _ named =>
    namesInterface_of_isNamed ⟨named.1.isName, named.2⟩

theorem callbackFunction_yields : Yields NamesInterface callbackFunction :=
  .of_forall _ _ fun _ => namesInterface_of_other nofun

theorem dictionary_yields : Yields NamesInterface dictionary :=
  .of_forall _ _ fun _ => namesInterface_of_other nofun

/-- The remaining kinds of definitions declare no interface. -/
theorem simple_yields : Yields NamesInterface (firstOf enumeration [typedef, inclusion]) :=
  .choice (.of_forall _ _ fun _ => namesInterface_of_other nofun)
    (.choice (.of_forall _ _ fun _ => namesInterface_of_other nofun)
      (.of_forall _ _ fun _ => namesInterface_of_other nofun))

/-- The found definition names its interface. -/
def FoundNames (found : Found) : Prop := NamesInterface found.definition

/-- Where a definition stands is not part of its names. -/
theorem located_yields {phrase : Phrase Definition} (yields : Yields NamesInterface phrase) :
    Yields FoundNames (located phrase) :=
  yields.source.map _ fun _ names => names

/-- Partial definitions name the members that they add. -/
theorem partialDefinition_yields : Yields FoundNames partialDefinition := by
  have parts : Yields NamesInterface partDefinition :=
    mixin_yields.choice (interface_yields.choice
      (dictionary_yields.choice namespaceDefinition_yields))
  exact ((located_yields parts).second _).map _ fun _ => namesInterface_asPartial

/-- One definition of a document names whatever interface it declares. -/
theorem definition_yields : Yields FoundNames definition := by
  have interfaces : Yields NamesInterface interfaceDefinition :=
    callbackInterface_yields.choice (callbackFunction_yields.choice
      (mixin_yields.choice interface_yields))
  have plain : Yields NamesInterface plainDefinition :=
    namespaceDefinition_yields.choice (dictionary_yields.choice simple_yields)
  have declared : Yields FoundNames declaration :=
    (located_yields interfaces).choice (partialDefinition_yields.choice (located_yields plain))
  exact (declared.second _).map _ fun _ => namesInterface_withExtAttrs _

/-- All definitions of a text name their interfaces, by induction over the definitions read. -/
theorem definitionsFrom_names (line : Nat) (text : List Char) :
    ∀ definition ∈ (definitionsFrom line text).1, NamesInterface definition := by
  induction text using definitions_induction generalizing line with
  | step text found rest read inductionHypothesis =>
    rw [definitionsFrom_of_some read]
    exact List.forall_mem_cons.mpr
      ⟨namesInterface_withSpan _ (definition_yields read), inductionHypothesis _⟩
  | stop text missing =>
    rw [definitionsFrom_of_none missing]
    exact List.forall_mem_nil _

/-- Merging partial definitions and mixins brings no members but those that are declared. -/
theorem isNamed_of_parse {text : List Char} {document : Document}
    (accepted : Document.parse text = .ok document) {interface : Interface}
    (declared : interface ∈ document.allInterfaces) : interface.IsNamed := by
  rw [parse_eq_definitionsFrom] at accepted
  split at accepted <;> try contradiction
  obtain rfl := Except.ok.inj accepted
  obtain ⟨definition, member, same⟩ := List.mem_filterMap.mp declared
  refine definitionsFrom_names 1 text definition member interface ?_
  cases definition with
  | interface other =>
    obtain rfl := Option.some.inj same
    rfl
  | dictionary | enumeration | callback | typedef | inclusion => contradiction

/-- Every interface of a document has a name token as its name. -/
theorem isName_of_parse {text : List Char} {document : Document}
    (accepted : Document.parse text = .ok document) {interface : Interface}
    (declared : interface ∈ document.interfaces) : IsName interface.name :=
  (isNamed_of_parse accepted (List.mem_filter.mp declared).1).isName

/-- Every subject of a document has a name token as its name. -/
theorem isIdentifier_of_parse {text : List Char} {document : Document}
    (accepted : Document.parse text = .ok document) {name : String} {subject : Subject}
    (isSubject : subject ∈ document.subjectsOf name) : IsIdentifier subject.name := by
  obtain ⟨member, isMember, becomes⟩ := List.mem_filterMap.mp isSubject
  obtain ⟨interface, declared, inInterface⟩ : ∃ interface ∈ document.allInterfaces,
      member ∈ interface.members := by
    simp only [Document.membersOf, Document.ownMembers, Document.mixinMembers, List.mem_append,
      List.mem_flatMap, List.mem_filter] at isMember
    rcases isMember with (⟨interface, ⟨declared, -⟩, inside⟩ | ⟨interface, ⟨declared, -⟩, inside⟩) |
      ⟨-, -, interface, ⟨declared, -⟩, inside⟩
    all_goals exact ⟨interface, declared, inside⟩
  exact (isNamed_of_parse accepted declared).members member inInterface subject becomes

end InterfaceAudit.Idl
