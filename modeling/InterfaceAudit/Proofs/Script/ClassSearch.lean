import InterfaceAudit.Proofs.Script.Wrapper
import InterfaceAudit.Script.Program

/-!
The class of a wrapper and its members.
The search for a class finds the first one of the tree, and each method of that class belongs to one
kind, whose table has its name at the place of the first such method.
-/

namespace InterfaceAudit

namespace Script

/-! ### Search -/

/-- The nodes that declare a class. -/
def Node.declaresClass (node : Node) : Bool := node.kind == .classDeclaration

/-- Several nodes are traversed one after the other. -/
theorem Node.preorderAll_eq_flatMap (nodes : List Node) :
    preorderAll nodes = nodes.flatMap preorder := by
  induction nodes with
  | nil => rfl
  | cons node nodes inductionHypothesis =>
    rw [preorderAll, inductionHypothesis, List.flatMap_cons]

theorem Node.preorderAll_append (first second : List Node) :
    preorderAll (first ++ second) = preorderAll first ++ preorderAll second := by
  simp only [preorderAll_eq_flatMap, List.flatMap_append]

/-- The pending nodes are searched in the order in which their trees are traversed. -/
theorem firstClass?_eq_find? (pending : List Node) :
    firstClass? pending = (Node.preorderAll pending).find? Node.declaresClass := by
  fun_induction firstClass? pending with
  | case1 => rfl
  | case2 kind role span children pending isClass =>
    have declares : (Node.mk kind role span children).declaresClass = true := isClass
    rw [Node.preorderAll, Node.preorder, List.cons_append, List.find?_cons_of_pos declares]
  | case3 kind role span children pending other inductionHypothesis =>
    have declaresNone : ¬ (Node.mk kind role span children).declaresClass = true := other
    rw [inductionHypothesis, Node.preorderAll, Node.preorder, List.cons_append,
      List.find?_cons_of_neg declaresNone, Node.preorderAll_append]

/-- The search finds the first class in the order of the traversal. -/
theorem firstClass?_root (root : Node) :
    firstClass? [root] = root.preorder.find? Node.declaresClass := by
  rw [firstClass?_eq_find?, Node.preorderAll, Node.preorderAll, List.append_nil]

/-! ### Names of methods -/

/-- The name of a method and the words in front of it. -/
def Tree.heading? (tree : Tree) (method : Node) : Option (String × List String) :=
  (method.child? .name).map fun nameNode =>
    (String.ofList (tree.text nameNode), method.modifiers nameNode)

/-- The name of a method that is of a kind. -/
def Tree.nameAs? (tree : Tree) (kind : MethodKind) (method : Node) : Option String :=
  (tree.heading? method).bind fun (name, words) => if kind.Fits name words then some name else none

/-- A method is a member under the name that it has as its kind. -/
theorem Tree.isMember_iff {tree : Tree} {kind : MethodKind} {name : String} {method : Node} :
    tree.isMember kind name method = true ↔
      ∃ spelled, tree.nameAs? kind method = some spelled ∧
        (kind = .constructor ∨ spelled = name) := by
  unfold isMember nameAs? heading?
  cases method.child? .name with
  | none => simp
  | some nameNode => simp [MethodKind.of_eq_iff]

/-- A constructor is found whatever name is asked for. -/
theorem Tree.isMember_constructor (tree : Tree) (name : String) :
    tree.isMember .constructor name = fun method => (tree.nameAs? .constructor method).isSome := by
  funext method
  rw [Bool.eq_iff_iff, isMember_iff, Option.isSome_iff_exists]
  simp

/-- The other kinds are found under their own names. -/
theorem Tree.isMember_of_ne_constructor (tree : Tree) {kind : MethodKind}
    (tabled : kind ≠ .constructor) (name : String) :
    tree.isMember kind name = fun method => decide (tree.nameAs? kind method = some name) := by
  funext method
  rw [Bool.eq_iff_iff, isMember_iff, decide_eq_true_iff]
  simp [tabled]

end Script

namespace WrapperSymbols

open Script

/-! ### Tables -/

/-- Every kind of method but the constructor has a table. -/
def table? (symbols : WrapperSymbols) : MethodKind → Option SymbolTable
  | .constructor => none
  | .getter => some symbols.getters
  | .setter => some symbols.setters
  | .static => some symbols.staticMethods
  | .plain => some symbols.methods

def listed (symbols : WrapperSymbols) (kind : MethodKind) : List String :=
  ((symbols.table? kind).map Table.names).getD []

/-- Recording a method lists its name at the end of its kind, if it is new. -/
theorem record_listed (symbols : WrapperSymbols) (recorded : String) (place : Place)
    (kind : MethodKind) {other : MethodKind} (tabled : other ≠ .constructor) :
    (symbols.record recorded place kind).listed other =
      if kind = other then
        if recorded ∈ symbols.listed other then symbols.listed other
        else symbols.listed other ++ [recorded]
      else symbols.listed other := by
  split
  · next same =>
    subst same
    cases kind with
    | constructor => contradiction
    | _ => exact Table.names_insertNew ..
  · next different =>
    cases kind <;> cases other <;> first | rfl | exact absurd rfl different

/-- A method is listed under the one kind that it has. -/
theorem recordMethod_listed (tree : Tree) {kind : MethodKind} (tabled : kind ≠ .constructor)
    (symbols : WrapperSymbols) (method : Node) :
    (symbols.recordMethod tree method).listed kind =
      match tree.nameAs? kind method with
      | some name =>
        if name ∈ symbols.listed kind then symbols.listed kind else symbols.listed kind ++ [name]
      | none => symbols.listed kind := by
  unfold recordMethod Tree.nameAs? Tree.heading?
  cases method.child? .name with
  | none => rfl
  | some nameNode =>
    simp only [Option.map_some, Option.bind_some, record_listed _ _ _ _ tabled,
      MethodKind.of_eq_iff]
    split <;> rfl

/-- The names of a table come in the order of the first methods that have them. -/
theorem ofNode_listed (tree : Tree) (classNode : Node) {kind : MethodKind}
    (tabled : kind ≠ .constructor) :
    (ofNode tree classNode).listed kind =
      (classNode.methods.filterMap (tree.nameAs? kind)).eraseDups := by
  have empty (className : String) : (ofClass className).listed kind = [] := by
    cases kind <;> rfl
  unfold ofNode Node.methods
  cases classNode.child? .body with
  | none => exact empty _
  | some body =>
    exact foldl_lists_first (fun symbols : WrapperSymbols => symbols.listed kind)
      (recordMethod_listed tree tabled) (empty _) _

/-- A table holds the names that methods have as a kind, each at the place of the first method that
has it. -/
structure Tabulates (tree : Tree) (methods : List Node) (kind : MethodKind) (table : SymbolTable) :
    Prop where
  places : ∀ name, table.get? name =
    (methods.find? fun method => tree.nameAs? kind method = some name).map
      fun method => method.span.place
  names : table.names = (methods.filterMap (tree.nameAs? kind)).eraseDups

/-- Every table of a class holds the methods of its kind. -/
theorem tabulates_of_table? (tree : Tree) (classNode : Node) {kind : MethodKind}
    {table : SymbolTable} (isTable : (ofNode tree classNode).table? kind = some table) :
    Tabulates tree classNode.methods kind table := by
  have tabled : kind ≠ .constructor := by
    rintro rfl
    contradiction
  constructor
  · intro name
    have place : (ofNode tree classNode).place? name kind = table.get? name := by
      cases kind <;> cases isTable <;> rfl
    rw [← place, ofNode_place?, tree.isMember_of_ne_constructor tabled]
  · have names : (ofNode tree classNode).listed kind = table.names := by rw [listed, isTable]; rfl
    rw [← names, ofNode_listed tree classNode tabled]

/-- The constructor of a class is its first method of that kind. -/
theorem ofNode_constructor (tree : Tree) (classNode : Node) :
    (ofNode tree classNode).constructor =
      (classNode.methods.find? fun method => (tree.nameAs? .constructor method).isSome).map
        fun method => method.span.place := by
  rw [← tree.isMember_constructor "constructor"]
  exact ofNode_place? tree classNode "constructor" .constructor

/-- A tree yields symbols unless no node of it declares a class. They belong to the first such node
in the order of traversal: each method of that class with a name fits one kind, the constructor is
the first of its kind, and the tables of the other kinds hold the methods that fit them. -/
theorem class_symbols_of_tree (tree : Tree) :
    firstClass? [tree.root] = tree.root.preorder.find? Node.declaresClass ∧
      (ofTree? tree = none ↔ ∀ node ∈ tree.root.preorder, node.kind ≠ .classDeclaration) ∧
      ∀ symbols, ofTree? tree = some symbols →
        ∃ classNode, tree.root.preorder.find? Node.declaresClass = some classNode ∧
          (∀ method ∈ classNode.methods, ∀ name words, tree.heading? method = some (name, words) →
            ∃! kind : MethodKind, kind.Fits name words) ∧
          symbols.constructor =
            (classNode.methods.find? fun method => (tree.nameAs? .constructor method).isSome).map
              (fun method => method.span.place) ∧
          ∀ kind table, symbols.table? kind = some table →
            Tabulates tree classNode.methods kind table := by
  refine ⟨firstClass?_root tree.root, ?_, ?_⟩
  · rw [ofTree?, Option.map_eq_none_iff, firstClass?_root, List.find?_eq_none]
    simp [Node.declaresClass]
  · intro symbols found
    obtain ⟨classNode, isFirst, rfl⟩ := Option.map_eq_some_iff.mp found
    rw [firstClass?_root] at isFirst
    refine ⟨classNode, isFirst, ?_, ofNode_constructor tree classNode, fun kind table isTable =>
      tabulates_of_table? tree classNode isTable⟩
    intro method _ name words _
    exact ⟨.of name words, MethodKind.fits_of name words, fun kind fits =>
      (MethodKind.of_eq_iff.mpr fits).symm⟩

/-- Words for modifiers may be names of members. -/
example :
    (ofText? ("abstract class A \x7b\n  static get() \x7b\x7d\n  get static() \x7b\x7d\n" ++
        "  static constructor() \x7b\x7d\n  constructor() \x7b\x7d\n  set() \x7b\x7d\n" ++
        "  get() \x7b\x7d\n  set() \x7b\x7d\n\x7d\nclass B \x7b\x7d\n")).map
        (fun symbols => (symbols.constructor, symbols.staticMethods.names, symbols.getters.names,
          symbols.methods.entries)) =
      some (some ⟨5, some 5⟩, ["get", "constructor"], ["static"],
        [("set", ⟨6, some 6⟩), ("get", ⟨7, some 7⟩)]) := by
  decide +kernel

end WrapperSymbols

end InterfaceAudit
