import InterfaceAudit.Script.Node

/-!
Wrappers: the members of the first class that a script declares.
-/

namespace InterfaceAudit

namespace Script

theorem sizeOf_append (first second : List Node) :
    sizeOf (first ++ second) + 1 = sizeOf first + sizeOf second := by
  induction first with
  | nil => simp; omega
  | cons node first inductionHypothesis => simp; omega

/-- The search takes the first pending node and puts its children in front of the others. -/
def firstClass? : List Node → Option Node
  | [] => none
  | .mk kind role span children :: pending =>
    if kind == .classDeclaration then some (.mk kind role span children)
    else firstClass? (children ++ pending)
termination_by pending => sizeOf pending
decreasing_by
  have bound := sizeOf_append children pending
  simp
  omega

def Kind.words : Kind → List String
  | .token spelling => (spelling.splitToList (· == ' ')).filter (· ≠ "")
  | _ => []

/-- The modifiers of a member are the tokens that start before its name. -/
def Node.modifiers (node name : Node) : List String :=
  (node.children.takeWhile fun child =>
    decide (child.span.start.offset < name.span.start.offset)).flatMap fun child => child.kind.words

/-- What a method is to its class. -/
inductive MethodKind where
  | constructor
  | getter
  | setter
  | static
  | plain
  deriving DecidableEq, Repr

/-- A member with the name of a constructor is one unless a modifier makes it something else. -/
def MethodKind.of (name : String) (modifiers : List String) : MethodKind :=
  if name == "constructor" && !(modifiers.any ["get", "set", "static"].contains) then .constructor
  else if modifiers.contains "get" then .getter
  else if modifiers.contains "set" then .setter
  else if modifiers.contains "static" then .static
  else .plain

end Script

namespace WrapperSymbols

open Script

def ofClass (className : String) : WrapperSymbols :=
  ⟨className, none, .empty, .empty, .empty, .empty⟩

/-- The first member of a kind and a name is recorded. -/
def record (symbols : WrapperSymbols) (name : String) (place : Place) :
    MethodKind → WrapperSymbols
  | .constructor => { symbols with constructor := symbols.constructor <|> some place }
  | .getter => { symbols with getters := symbols.getters.insertNew name place }
  | .setter => { symbols with setters := symbols.setters.insertNew name place }
  | .static => { symbols with staticMethods := symbols.staticMethods.insertNew name place }
  | .plain => { symbols with methods := symbols.methods.insertNew name place }

/-- A method without a name is not recorded. -/
def recordMethod (tree : Tree) (symbols : WrapperSymbols) (method : Node) : WrapperSymbols :=
  match method.child? .name with
  | some nameNode =>
    let name := String.ofList (tree.text nameNode)
    symbols.record name method.span.place (.of name (method.modifiers nameNode))
  | none => symbols

/-- Only the methods directly in the body of a class are its members. -/
def ofNode (tree : Tree) (classNode : Node) : WrapperSymbols :=
  let name :=
    ((classNode.child? .name).map fun node => String.ofList (tree.text node)).getD "Unknown"
  match classNode.child? .body with
  | some body =>
    (body.children.filter fun child => child.kind == .method).foldl (recordMethod tree)
      (ofClass name)
  | none => ofClass name

/-- A tree without a class declaration has no wrapper symbols. -/
def ofTree? (tree : Tree) : Option WrapperSymbols :=
  (firstClass? [tree.root]).map (ofNode tree)

end WrapperSymbols

end InterfaceAudit
