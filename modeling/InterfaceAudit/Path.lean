import InterfaceAudit.Text.Lines

/-!
Paths: names joined by slashes.
Empty names and single dots are dropped when a path is read, and double dots are kept.
-/

namespace InterfaceAudit

/-- Two slashes in front stand for a root of their own; more than two stand for the usual one. -/
inductive Anchor where
  | none
  | root
  | doubleRoot
  deriving DecidableEq, Repr

def Anchor.spelling : Anchor → String
  | .none => ""
  | .root => "/"
  | .doubleRoot => "//"

structure Path where
  anchor : Anchor
  names : List String
  deriving DecidableEq, Repr

namespace Path

def anchorOf : List Char → Anchor
  | '/' :: '/' :: '/' :: _ => .root
  | '/' :: '/' :: _ => .doubleRoot
  | '/' :: _ => .root
  | _ => .none

def ofString (text : String) : Path where
  anchor := anchorOf text.toList
  names := ((Text.splitOn '/' text.toList).filter fun name => name != [] && name != ['.']).map
    String.ofList

/-- The empty path is the current directory. -/
def toString (path : Path) : String :=
  match path.anchor, path.names with
  | .none, [] => "."
  | anchor, names => anchor.spelling ++ String.intercalate "/" names

def isAbsolute (path : Path) : Bool := path.anchor != .none

/-- An absolute path does not depend on what it is joined to. -/
def join (base path : Path) : Path :=
  if path.isAbsolute then path else ⟨base.anchor, base.names ++ path.names⟩

def child (directory : Path) (name : String) : Path := directory.join (.ofString name)

/-- The rest of a path that starts with the names of another. -/
def relativeTo? (path base : Path) : Option Path :=
  if path.anchor = base.anchor && base.names.isPrefixOf path.names then
    some ⟨.none, path.names.drop base.names.length⟩
  else none

end Path

end InterfaceAudit
