import InterfaceAudit.Proofs.Native.Link
import InterfaceAudit.Proofs.Script.Wrapper
import InterfaceAudit.Script.Program

/-!
Staticness of links.
A method is linked to a static declaration and to a static member exactly when it is static. An
attribute is linked to an instance declaration and to a getter, and neither link asks whether the
attribute is static.
-/

namespace InterfaceAudit

open Idl (Subject)
open Script (MethodKind Node Tree)
open Text (Blank)

/-! ### Declarations -/

namespace Native

/-- The word for a static method stands behind the indent. -/
def BeginsStatic (line : List Char) : Prop :=
  ∃ indent rest, Blank indent ∧ line = indent ++ ("static".toList ++ rest)

/-- A static declaration begins with its word. -/
theorem StaticDeclaration.beginsStatic {name line : List Char}
    (declaration : StaticDeclaration name line) : BeginsStatic line := by
  obtain ⟨indent, gap, type, space, call, blank, -, -, -, -, -, rfl⟩ := declaration
  exact ⟨indent, _, blank, rfl⟩

/-- The blanks in front of a line are skipped up to its first solid character. -/
theorem skipBlanks_indent {indent rest : List Char} {c : Char} (blank : Blank indent)
    (solid : Text.isBlank c = false) : Text.skipBlanks (indent ++ c :: rest) = c :: rest :=
  Text.skipBlanks_eq_iff.mpr ⟨Text.unindented_cons solid, indent, blank, rfl⟩

/-- None of the usual return types begins as the word for a static method does. -/
theorem InstanceDeclaration.not_beginsStatic {name line : List Char}
    (declaration : InstanceDeclaration (spellingsOf defaultReturnTypes) name line) :
    ¬ BeginsStatic line := by
  rintro ⟨indent, rest, blank, split⟩
  obtain ⟨other, text, earlier, type, later, otherBlank, rfl, types, typed, -⟩ := declaration
  obtain ⟨gap, call, -, -, rfl⟩ := typed
  have member : type ∈ spellingsOf defaultReturnTypes := by rw [types]; simp
  have begins : ∀ type ∈ spellingsOf defaultReturnTypes,
      type.head?.any fun c => !Text.isBlank c && c != 's' := by
    decide
  have first := begins type member
  cases type with
  | nil => contradiction
  | cons c type =>
    obtain ⟨solid, other⟩ : Text.isBlank c = false ∧ c ≠ 's' := by simpa using first
    have word : "static".toList ++ rest = 's' :: ("tatic".toList ++ rest) := rfl
    have skipped := congrArg Text.skipBlanks split
    rw [word, List.cons_append, skipBlanks_indent otherBlank solid,
      skipBlanks_indent blank (by decide)] at skipped
    exact other (List.cons.inj skipped).1

/-- A line that declares a symbol is a static declaration exactly for static symbols. -/
theorem Declares.static_iff {returnTypes : List String} {isStatic : Bool} {symbol line : List Char}
    (declares : Declares returnTypes isStatic symbol line) :
    (∃ name, StaticDeclaration name line) ↔ isStatic = true := by
  cases isStatic with
  | true => exact ⟨fun _ => rfl, fun _ => ⟨symbol, declares⟩⟩
  | false =>
    exact ⟨fun ⟨name, found⟩ => absurd found (declares.1 name), fun absent => nomatch absent⟩

/-- With the default return types only static declarations begin with that word. -/
theorem Declares.beginsStatic_iff {isStatic : Bool} {symbol line : List Char}
    (declares : Declares defaultReturnTypes isStatic symbol line) :
    BeginsStatic line ↔ isStatic = true := by
  cases isStatic with
  | true => exact ⟨fun _ => rfl, fun _ => StaticDeclaration.beginsStatic declares⟩
  | false =>
    exact ⟨fun begins => absurd begins declares.2.not_beginsStatic, fun absent => nomatch absent⟩

end Native

/-! ### Members -/

/-- The modifiers in front of the name of a method. -/
def Script.Node.carried (method : Node) : List String :=
  ((method.child? .name).map method.modifiers).getD []

/-- A method carries the modifiers of the kind that it is found as. -/
theorem Script.Tree.carries_of_isMember {tree : Tree} {kind : MethodKind} {name : String}
    {method : Node} (member : tree.isMember kind name method = true) :
    kind.Carries method.carried := by
  unfold isMember at member
  unfold Node.carried
  cases found : method.child? .name with
  | none =>
    rw [found] at member
    contradiction
  | some nameNode =>
    rw [found, Bool.and_eq_true, beq_iff_eq] at member
    exact member.1 ▸ MethodKind.of_carries _ _

/-- The kind of method that a subject is bound to. -/
def Idl.Subject.boundKind : Subject → MethodKind
  | .attribute _ => .getter
  | .method _ member => if member.isStatic then .static else .plain
  | .constructor _ => .constructor

/-- A subject is looked for in the table of one kind of methods. -/
theorem Idl.Subject.boundPlace?_eq (subject : Subject) (wrapper : WrapperSymbols) :
    subject.boundPlace? wrapper = wrapper.place? subject.name subject.boundKind := by
  cases subject with
  | «attribute» member => rfl
  | method name member =>
    simp only [boundPlace?, boundKind, WrapperSymbols.table, Subject.name]
    split <;> rfl
  | constructor member => rfl

/-! ### Links -/

/-- A demand that is met found its symbol in every table. -/
theorem Demand.links_of_resolve {demand : Demand} {interface name : String}
    {implementation : SymbolTable} {files : ArtifactFiles} {links : CrossReference}
    (resolved : demand.resolve interface name implementation files = .ok links) :
    ∃ declared bound, demand.headerTable.get? demand.native = some declared ∧
      demand.wrapperTable.get? name = some bound ∧
      links.declaration = some ⟨files.header, declared.line, none⟩ ∧
      links.binding = some (.at files.wrapper bound) := by
  cases found : demand.wrapperTable.get? name with
  | none =>
    unfold resolve at resolved
    cases declared : demand.headerTable.get? demand.native with
    | none => simp [declared] at resolved
    | some declared =>
      cases defined : implementation.get? demand.native <;> simp_all
  | some bound =>
    obtain ⟨declared, defined, isDeclared, -, rfl⟩ := (resolve_eq_ok_iff found).mp resolved
    exact ⟨declared, bound, isDeclared, rfl, rfl, rfl⟩

/-- Both links come from the tables that fit the staticness of the subject. -/
theorem links_of_resolve {interface symbol : String} {subject : Subject}
    {symbols : ArtifactSymbols} {files : ArtifactFiles} {links : CrossReference}
    (named : subject.nativeName? = some symbol)
    (resolved : resolve interface subject symbols files = .ok links) :
    ∃ declared bound,
      (symbols.header.table subject.isStaticMethod).get? symbol = some declared ∧
        symbols.wrapper.place? subject.name subject.boundKind = some bound ∧
        links.declaration = some ⟨files.header, declared.line, none⟩ ∧
        links.binding = some (.at files.wrapper bound) := by
  cases subject with
  | «attribute» member =>
    obtain rfl := Option.some.inj named
    exact Demand.links_of_resolve resolved
  | method name member =>
    obtain rfl := Option.some.inj named
    obtain ⟨declared, bound, isDeclared, isBound, links⟩ := Demand.links_of_resolve resolved
    rw [Demand.ofMethod_headerTable, Demand.ofMethod_native] at isDeclared
    rw [Demand.ofMethod_wrapperTable] at isBound
    refine ⟨declared, bound, isDeclared, ?_, links⟩
    rw [← Idl.Subject.boundPlace?_eq]
    exact isBound
  | constructor member => contradiction

open Native in
/-- A method is linked to a static declaration exactly when it is static, and to a member with the
word for static exactly when it is static. An attribute is linked to an instance declaration and to
a getter, whether it is static or not and whether the getter is. -/
theorem resolve_agrees_in_staticness {returnTypes : List String} {interface symbol : String}
    {subject : Subject} {header : List Char} {tree : Tree} {wrapper : WrapperSymbols}
    {implementation : ImplementationSymbols} {files : ArtifactFiles} {links : CrossReference}
    (declares : WrapperSymbols.ofTree? tree = some wrapper)
    (named : subject.nativeName? = some symbol)
    (resolved : resolve interface subject ⟨readHeader returnTypes header, implementation, wrapper⟩
      files = .ok links) :
    (∃ declaration, links.declaration = some declaration ∧
      declaration.line ∈ linesWhere header fun line =>
        Declares returnTypes subject.isStaticMethod symbol.toList line ∧
          ((∃ name, StaticDeclaration name line) ↔ subject.isStaticMethod = true) ∧
          (returnTypes = defaultReturnTypes →
            (BeginsStatic line ↔ subject.isStaticMethod = true))) ∧
      ∃ classNode method, Script.firstClass? [tree.root] = some classNode ∧
        classNode.methods.find? (tree.isMember subject.boundKind subject.name) = some method ∧
        links.binding = some (.at files.wrapper method.span.place) ∧
        match subject with
        | .attribute _ => "get" ∈ method.carried
        | .method _ member => "static" ∈ method.carried ↔ member.isStatic = true
        | .constructor _ => True := by
  obtain ⟨declared, bound, isDeclared, isBound, declaration, binding⟩ :=
    links_of_resolve named resolved
  constructor
  · refine ⟨_, declaration, ?_⟩
    have least := (readHeader_line?_eq_some_iff returnTypes subject.isStaticMethod symbol header
      declared.line).mp (congrArg (Option.map Place.line) isDeclared)
    obtain ⟨positive, line, found, lineDeclares⟩ := least.1
    refine ⟨positive, line, found, lineDeclares, lineDeclares.static_iff, ?_⟩
    rintro rfl
    exact lineDeclares.beginsStatic_iff
  · obtain ⟨classNode, first, rfl⟩ := Option.map_eq_some_iff.mp declares
    rw [WrapperSymbols.ofNode_place?, Option.map_eq_some_iff] at isBound
    obtain ⟨method, found, rfl⟩ := isBound
    refine ⟨classNode, method, first, found, binding, ?_⟩
    have carries := tree.carries_of_isMember (List.find?_some found)
    cases subject with
    | «attribute» member => exact carries
    | method name member =>
      dsimp only [Idl.Subject.boundKind] at carries ⊢
      split at carries
      · next isStatic => exact ⟨fun _ => isStatic, fun _ => carries.1⟩
      · next isPlain =>
        exact ⟨fun marked => absurd marked carries.2.2, fun isStatic => absurd isStatic isPlain⟩
    | constructor member => trivial

/-- A header with an instance method and a static method of one name. -/
def pairedHeader : List Char := "  bool Run(int x);\n  static void Run(int x);\n".toList

/-- A class with a getter, an instance method and a static method of one name. -/
def pairedTree : Tree :=
  .ofText "class A \x7b\n  get run() \x7b\x7d\n  run() \x7b\x7d\n  static run() \x7b\x7d\n\x7d\n"

def definedRun : ImplementationSymbols where
  constructor := none
  methods := Table.empty.insertNew "Run" ⟨1, none⟩

def staticRun : Subject :=
  .method "run" { name := some "run", returnType := "undefined", isStatic := true }

/-- Of two members of one name the static one is linked. -/
theorem resolve_agrees_in_staticness_paired :
    2 ∈ linesWhere pairedHeader Native.BeginsStatic ∧
      ∃ classNode method, Script.firstClass? [pairedTree.root] = some classNode ∧
        method ∈ classNode.methods ∧ method.span.place = ⟨4, some 4⟩ ∧
        "static" ∈ method.carried := by
  have links : (WrapperSymbols.ofTree? pairedTree).map (fun wrapper =>
      resolve "A" staticRun ⟨Native.readHeader Native.defaultReturnTypes pairedHeader, definedRun,
        wrapper⟩ (.conventional "A")) =
      some (.ok
        { declaration := some ⟨"src/A.h", 2, none⟩
          implementation := some ⟨"src/A.cpp", 1, none⟩
          binding := some ⟨"lib/A.ts", 4, some 4⟩ }) := by
    decide +kernel
  obtain ⟨wrapper, declares, resolved⟩ := Option.map_eq_some_iff.mp links
  have named : staticRun.nativeName? = some "Run" := by decide +kernel
  obtain ⟨⟨declaration, declared, positive, line, found, -, -, begins⟩, classNode, method, first,
    isMember, binding, marked⟩ := resolve_agrees_in_staticness declares named resolved
  obtain rfl := Option.some.inj declared
  have placed := CodeLink.mk.inj (Option.some.inj binding)
  refine ⟨⟨positive, line, found, (begins rfl).mpr rfl⟩, classNode, method, first,
    List.mem_of_find?_eq_some isMember, ?_, marked.mpr rfl⟩
  rw [show method.span.place = ⟨method.span.place.line, method.span.place.endLine⟩ from rfl,
    ← placed.2.1, ← placed.2.2]

def staticAttribute : Subject := .attribute { name := "a", type := "long", isStatic := true }

def instanceAttribute : Subject := .attribute { name := "a", type := "long" }

def instanceGetterHeader : List Char := "  bool GetA(int x);\n".toList

def definedGetter : ImplementationSymbols where
  constructor := none
  methods := Table.empty.insertNew "GetA" ⟨1, none⟩

/-- The links of an attribute with an instance declaration and the getter of a class. -/
def getterLinks : CrossReference where
  declaration := some ⟨"src/A.h", 1, none⟩
  implementation := some ⟨"src/A.cpp", 1, none⟩
  binding := some ⟨"lib/A.ts", 2, some 2⟩

/-- A static attribute is linked to an instance declaration and an instance getter, and an instance
attribute is linked to a static getter. -/
theorem resolve_crosses_staticness :
    let resolved (subject : Subject) (script : String) :=
      (WrapperSymbols.ofText? script).map fun wrapper =>
        resolve "A" subject
          ⟨Native.readHeader Native.defaultReturnTypes instanceGetterHeader, definedGetter, wrapper⟩
          (.conventional "A")
    resolved staticAttribute "class A \x7b\n  get a() \x7b\x7d\n\x7d\n" = some (.ok getterLinks) ∧
      resolved instanceAttribute "class A \x7b\n  static get a() \x7b\x7d\n\x7d\n" =
        some (.ok getterLinks) := by
  decide +kernel

end InterfaceAudit
