import InterfaceAudit.Audit.Document
import InterfaceAudit.Settings.Basic
import InterfaceAudit.Text.Kebab

/-!
Layouts: where the artifacts of an interface lie.
Their names follow from the name of the interface, and the tests go by its kebab name.
-/

namespace InterfaceAudit.Project

structure Layout where
  header : Path
  implementation : Path
  wrapper : Path
  narrative : Path
  tests : Path
  deriving DecidableEq, Repr

namespace Layout

def ofInterface (paths : Settings.Paths) (interface : String) : Layout where
  header := paths.headerDirectory.child (interface ++ paths.headerSuffix)
  implementation := paths.implementationDirectory.child (interface ++ paths.implementationSuffix)
  wrapper := paths.wrapperDirectory.child (interface ++ paths.wrapperSuffix)
  narrative := paths.narrativeDirectory.child (interface ++ paths.narrativeSuffix)
  tests := paths.testDirectory.child (kebabCase interface ++ paths.testSuffix)

/-- The paths that documents show. -/
def shown (layout : Layout) : Audit.ArtifactPaths where
  header := layout.header.toString
  implementation := layout.implementation.toString
  wrapper := layout.wrapper.toString
  tests := layout.tests.toString

def linked (layout : Layout) : ArtifactFiles where
  header := layout.header.toString
  implementation := layout.implementation.toString
  wrapper := layout.wrapper.toString

def narrativeRef (layout : Layout) : String := layout.narrative.toString

/-- The paths from the root of a project. -/
def within (layout : Layout) (root : Path) : Layout where
  header := root.join layout.header
  implementation := root.join layout.implementation
  wrapper := root.join layout.wrapper
  narrative := root.join layout.narrative
  tests := root.join layout.tests

end Layout

end InterfaceAudit.Project
