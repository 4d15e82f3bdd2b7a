import InterfaceAudit.Project.FileTree
import InterfaceAudit.Project.Layout
import InterfaceAudit.Project.Report
import InterfaceAudit.Text.Lines
import InterfaceAudit.Text.Utf8

/-!
Reading the artifacts of an interface from a project.
-/

namespace InterfaceAudit.Project

/-- The texts of the artifacts; a narrative and tests may be absent. -/
structure ArtifactTexts where
  header : List Char
  implementation : List Char
  wrapper : List Char
  narrative : Option (List Char)
  tests : Option (List Char)
  deriving DecidableEq

/-- A path that is at fault is named from the root of the project, so it has to lie inside. -/
inductive ReadFault where
  | structural (fault : StructuralFault)
  | outside (path root : Path)
  deriving DecidableEq, Repr

def ReadFault.at (root path : Path) (fault : Path → StructuralFault) : ReadFault :=
  match path.relativeTo? root with
  | some relative => .structural (fault relative)
  | none => .outside path root

/-- A file is read as text, and its line ends become line feeds. -/
def textOf (content : List UInt8) : Except Text.Utf8Error (List Char) :=
  (Text.decodeUtf8 content).map Text.universalNewlines

def readOptional (tree : FileTree) (root path : Path) : Except ReadFault (Option (List Char)) :=
  match tree.content? path with
  | none => .ok none
  | some content =>
    match textOf content with
    | .ok text => .ok (some text)
    | .error reason => .error (.at root path fun path => .unreadableArtifact path reason)

def readRequired (tree : FileTree) (root path : Path) : Except ReadFault (List Char) := do
  match ← readOptional tree root path with
  | some text => .ok text
  | none => .error (.at root path .missingArtifact)

/-- The first artifact at fault is reported. -/
def readArtifacts (tree : FileTree) (root : Path) (layout : Layout) :
    Except ReadFault ArtifactTexts := do
  let paths := layout.within root
  return {
    header := ← readRequired tree root paths.header
    implementation := ← readRequired tree root paths.implementation
    wrapper := ← readRequired tree root paths.wrapper
    narrative := ← readOptional tree root paths.narrative
    tests := ← readOptional tree root paths.tests }

end InterfaceAudit.Project
