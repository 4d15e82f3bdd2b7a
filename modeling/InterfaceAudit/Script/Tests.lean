import InterfaceAudit.Script.Node

/-!
Test sources: the groups and cases that calls with a literal name declare.
-/

namespace InterfaceAudit

open Script

/-- The functions whose calls declare groups and cases. -/
structure TestVocabulary where
  groupFunctions : List String := ["describe"]
  caseFunctions : List String := ["it"]

/-- A call that declares something carries its callee and its name. -/
structure NamedCall where
  callee : String
  name : String
  place : Place
  deriving DecidableEq, Repr

namespace NamedCall

/-- A name is a literal without its quotes. -/
def unquoted (literal : List Char) : List Char := (literal.drop 1).dropLast

/-- The first named node among the arguments gives the name, if it is a literal. -/
def name? (tree : Tree) (arguments : Node) : Option String :=
  match arguments.children.find? Node.isNamed with
  | some first =>
    if first.kind == .literal then some (String.ofList (unquoted (tree.text first))) else none
  | none => none

def ofNode? (tree : Tree) (node : Node) : Option NamedCall :=
  if node.kind == .call then
    match node.child? .callee, node.child? .arguments with
    | some callee, some arguments =>
      (name? tree arguments).map fun name =>
        ⟨String.ofList (tree.text callee), name, node.span.place⟩
    | _, _ => none
  else none

end NamedCall

namespace TestSymbols

def empty : TestSymbols := ⟨.empty, []⟩

/-- A function that could declare both declares groups; a group that is known stays as it is. -/
def record (vocabulary : TestVocabulary) (symbols : TestSymbols) (call : NamedCall) :
    TestSymbols :=
  if vocabulary.groupFunctions.contains call.callee then
    { symbols with groups := symbols.groups.insertNew call.name call.place }
  else if vocabulary.caseFunctions.contains call.callee then
    { symbols with cases := symbols.cases ++ [⟨call.name, call.place⟩] }
  else symbols

/-- Calls are taken in the order in which they begin. -/
def ofTree (vocabulary : TestVocabulary) (tree : Tree) : TestSymbols :=
  (tree.root.preorder.filterMap (NamedCall.ofNode? tree)).foldl (record vocabulary) empty

end TestSymbols

end InterfaceAudit
