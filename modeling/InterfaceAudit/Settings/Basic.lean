import InterfaceAudit.Path
import InterfaceAudit.Script.Tests

/-!
Settings: where the artifacts of a project lie, how they are read and how documents are written.
-/

namespace InterfaceAudit

/-- A number is limited from below and perhaps from above. -/
structure Limits where
  least : Nat
  most : Option Nat := none

def Limits.Admits (limits : Limits) (value : Nat) : Prop :=
  limits.least ≤ value ∧ ∀ most ∈ limits.most, value ≤ most

instance (limits : Limits) (value : Nat) : Decidable (limits.Admits value) := by
  unfold Limits.Admits
  infer_instance

abbrev Limited (limits : Limits) := { value : Nat // limits.Admits value }

namespace Settings

/-- Directories are relative to the project unless they are absolute. -/
structure Paths where
  idlFile : Path := .ofString "spec/context/_webcodecs.idl"
  narrativeDirectory : Path := .ofString "spec/context"
  headerDirectory : Path := .ofString "src"
  implementationDirectory : Path := .ofString "src"
  wrapperDirectory : Path := .ofString "lib"
  testDirectory : Path := .ofString "test"
  outputDirectory : Path := .ofString "docs/tasks"
  narrativeSuffix : String := ".md"
  headerSuffix : String := ".h"
  implementationSuffix : String := ".cpp"
  wrapperSuffix : String := ".ts"
  testSuffix : String := ".test.ts"

def lookaheadLimits : Limits := ⟨1, none⟩

/-- The lookahead is the length of the text after a heading in which a static marker counts. -/
structure Parsing where
  returnTypes : List String := ["Napi::Value", "void", "bool"]
  vocabulary : TestVocabulary := {}
  lookahead : Limited lookaheadLimits := ⟨200, by decide⟩

/-- An interface stops at its first missing symbol, or all of them are collected. -/
inductive MissingSymbolPolicy where
  | first
  | all
  deriving DecidableEq, Repr

def MissingSymbolPolicy.name : MissingSymbolPolicy → String
  | .first => "first"
  | .all => "all"

def indentLimits : Limits := ⟨0, some 8⟩

def concurrentReadLimits : Limits := ⟨1, some 64⟩

structure Generation where
  policy : MissingSymbolPolicy := .first
  indent : Limited indentLimits := ⟨2, by decide⟩
  concurrentReads : Limited concurrentReadLimits := ⟨8, by decide⟩

structure Logging where
  level : String := "INFO"
  format : String := "console"

end Settings

structure Settings where
  appName : String := "SpecTrace"
  appVersion : String := "0.1.0"
  paths : Settings.Paths := {}
  parsing : Settings.Parsing := {}
  generation : Settings.Generation := {}
  logging : Settings.Logging := {}

end InterfaceAudit
