import InterfaceAudit.Symbols

/-!
Syntax trees of script sources.
A tree keeps the classes, calls and literals of a text, with the phrases that hold them.
-/

namespace InterfaceAudit.Script

/-- A point is counted in characters and in rows, both from zero. -/
structure Point where
  offset : Nat
  row : Nat
  deriving DecidableEq, Repr

def Point.origin : Point := ⟨0, 0⟩

/-- Only a line feed begins a new row. -/
def Point.after (point : Point) (c : Char) : Point :=
  ⟨point.offset + 1, if c == '\n' then point.row + 1 else point.row⟩

/-- A span ends behind its last character. -/
structure Span where
  start : Point
  stop : Point
  deriving DecidableEq, Repr

/-- Rows are counted from zero, lines from one. -/
def Span.place (span : Span) : Place := ⟨span.start.row + 1, some (span.stop.row + 1)⟩

/-- A token carries its spelling; every other kind is named for what it is. -/
inductive Kind where
  | program
  | phrase
  | classDeclaration
  | classExpression
  | classBody
  | method
  | call
  | arguments
  | literal
  | comment
  | name
  | token (spelling : String)
  deriving DecidableEq, Repr

/-- Tokens are the kinds without a name. -/
def Kind.isNamed : Kind → Bool
  | .token _ => false
  | _ => true

/-- The part that a node plays in the node above it. -/
inductive Role where
  | member
  | name
  | body
  | callee
  | arguments
  deriving DecidableEq, Repr

inductive Node where
  | mk (kind : Kind) (role : Role) (span : Span) (children : List Node)

namespace Node

def kind : Node → Kind
  | mk kind _ _ _ => kind

def role : Node → Role
  | mk _ role _ _ => role

def span : Node → Span
  | mk _ _ span _ => span

def children : Node → List Node
  | mk _ _ _ children => children

def withRole (role : Role) : Node → Node
  | mk kind _ span children => mk kind role span children

def isNamed (node : Node) : Bool := node.kind.isNamed

/-- The first child that plays a part. -/
def child? (node : Node) (role : Role) : Option Node :=
  node.children.find? fun child => child.role == role

mutual

/-- A node comes before its children, and they come in their order. -/
def preorder : Node → List Node
  | mk kind role span children => mk kind role span children :: preorderAll children

def preorderAll : List Node → List Node
  | [] => []
  | node :: others => node.preorder ++ preorderAll others

end

/-- One node stands for several: the phrase that spans them, or the node that spans it all. -/
def joining (span : Span) (nodes : List Node) : Node :=
  match nodes with
  | [node] => if node.span = span then node else mk .phrase .member span nodes
  | _ => mk .phrase .member span nodes

end Node

/-- A tree belongs to the text that it was read from. -/
structure Tree where
  source : List Char
  root : Node

/-- The part of the source that a node spans. -/
def Tree.text (tree : Tree) (node : Node) : List Char :=
  (tree.source.drop node.span.start.offset).take (node.span.stop.offset - node.span.start.offset)

end InterfaceAudit.Script
