import InterfaceAudit.Project.Run

/-!
Artifacts at fault.
What is read for an interface depends on its five artifacts alone, and the first one at fault, in
their order, decides what becomes of the interface.
-/

namespace InterfaceAudit.Project

variable {First Second Value : Type} {tree : FileTree} {root : Path}

/-- An artifact of an interface, and whether it has to be there. -/
structure Artifact where
  path : Path
  required : Bool

def Layout.artifacts (layout : Layout) : List Artifact :=
  [⟨layout.header, true⟩, ⟨layout.implementation, true⟩, ⟨layout.wrapper, true⟩,
    ⟨layout.narrative, false⟩, ⟨layout.tests, false⟩]

/-- A fault at a path; it is worded with the path that a report shows. -/
abbrev PathFault := Path × (Path → StructuralFault)

/-- A required artifact may be missing, and any artifact that is there may be no text. -/
def Artifact.fault? (tree : FileTree) (artifact : Artifact) : Option PathFault :=
  match tree.content? artifact.path with
  | none => if artifact.required then some (artifact.path, .missingArtifact) else none
  | some content =>
    match Text.decodeUtf8 content with
    | .error reason => some (artifact.path, fun path => .unreadableArtifact path reason)
    | .ok _ => none

/-- The first artifact at fault. -/
def firstFault? (tree : FileTree) (artifacts : List Artifact) : Option PathFault :=
  artifacts.findSome? (Artifact.fault? tree)

/-- An artifact at fault comes before all later ones. -/
theorem firstFault?_cons (artifact : Artifact) (others : List Artifact) :
    firstFault? tree (artifact :: others) =
      (artifact.fault? tree).or (firstFault? tree others) := by
  unfold firstFault?
  rw [List.findSome?_cons]
  cases artifact.fault? tree <;> rfl

/-- A reading reports a fault, or there is none and it gives a value. -/
def Reports (root : Path) (reading : Except ReadFault Value) : Option PathFault → Prop
  | some (path, fault) => reading = .error (.at root path fault)
  | none => ∃ value, reading = .ok value

namespace Reports

theorem pure (root : Path) (value : Value) :
    Reports root (Pure.pure value : Except ReadFault Value) none := ⟨value, rfl⟩

/-- What is read first reports its fault first. -/
theorem bind {reading : Except ReadFault First} {next : First → Except ReadFault Second}
    {fault other : Option PathFault} (reports : Reports root reading fault)
    (nextReports : ∀ value, Reports root (next value) other) :
    Reports root (reading >>= next) (fault.or other) := by
  cases fault with
  | some pair =>
    obtain rfl := reports
    rfl
  | none =>
    obtain ⟨value, rfl⟩ := reports
    exact nextReports value

/-- An optional artifact is at fault only when it cannot be decoded. -/
theorem readOptional (tree : FileTree) (root path : Path) :
    Reports root (readOptional tree root path) (Artifact.fault? tree ⟨path, false⟩) := by
  unfold Project.readOptional textOf Artifact.fault?
  cases tree.content? path with
  | none => exact ⟨none, rfl⟩
  | some content =>
    dsimp only
    cases Text.decodeUtf8 content with
    | error reason => rfl
    | ok text => exact ⟨_, rfl⟩

/-- A required artifact is at fault when it is absent or cannot be decoded. -/
theorem readRequired (tree : FileTree) (root path : Path) :
    Reports root (readRequired tree root path) (Artifact.fault? tree ⟨path, true⟩) := by
  unfold Project.readRequired Project.readOptional textOf Artifact.fault?
  cases tree.content? path with
  | none => rfl
  | some content =>
    dsimp only
    cases Text.decodeUtf8 content with
    | error reason => rfl
    | ok text => exact ⟨_, rfl⟩

/-- Artifacts are read in their order, so the first one at fault is reported. -/
theorem readArtifacts (tree : FileTree) (root : Path) (layout : Layout) :
    Reports root (readArtifacts tree root layout)
      (firstFault? tree (layout.within root).artifacts) := by
  simp only [Layout.artifacts, firstFault?_cons]
  exact bind (readRequired ..) fun _ => bind (readRequired ..) fun _ =>
    bind (readRequired ..) fun _ => bind (readOptional ..) fun _ => bind (readOptional ..) fun _ =>
      pure root _

end Reports

/-! ### Decisions -/

variable {parse : String → Script.Tree} {settings : Settings} {candidate : Candidate}

/-- The artifacts of a candidate in a project. -/
def Candidate.artifacts (settings : Settings) (root : Path) (candidate : Candidate) :
    List Artifact :=
  ((Layout.ofInterface settings.paths candidate.interface.name).within root).artifacts

/-- A candidate is decided by its texts, or by the fault of reading them. -/
theorem decision_eq (parse : String → Script.Tree) (settings : Settings) (tree : FileTree)
    (root : Path) (candidate : Candidate) :
    candidate.decision parse settings tree root =
      match readArtifacts tree root (.ofInterface settings.paths candidate.interface.name) with
      | .ok texts =>
        match auditInterface parse settings candidate.interface candidate.subjects texts with
        | (outcome, events) => .decided ⟨candidate.interface.name, outcome⟩ events
      | .error (.structural fault) => .decided ⟨candidate.interface.name, .faulty fault⟩ []
      | .error (.outside path root) => .outside path root := by
  unfold Candidate.decision
  rfl

/-- The reading of the artifacts of a candidate reports the first one at fault. -/
theorem Candidate.reports (settings : Settings) (tree : FileTree) (root : Path)
    (candidate : Candidate) :
    Reports root
      (readArtifacts tree root (.ofInterface settings.paths candidate.interface.name))
      (firstFault? tree (candidate.artifacts settings root)) :=
  Reports.readArtifacts tree root _

/-- Without a fault an interface is audited. -/
theorem decision_of_sound (sound : firstFault? tree (candidate.artifacts settings root) = none) :
    ∃ outcome events, candidate.decision parse settings tree root =
      .decided ⟨candidate.interface.name, outcome⟩ events := by
  have reports := candidate.reports settings tree root
  rw [sound] at reports
  obtain ⟨texts, read⟩ := reports
  rw [decision_eq, read]
  exact ⟨_, _, rfl⟩

/-- A fault inside of the project is the outcome of the interface. -/
theorem decision_of_fault {path relative : Path} {fault : Path → StructuralFault}
    (found : firstFault? tree (candidate.artifacts settings root) = some (path, fault))
    (inside : path.relativeTo? root = some relative) :
    candidate.decision parse settings tree root =
      .decided ⟨candidate.interface.name, .faulty (fault relative)⟩ [] := by
  have read := candidate.reports settings tree root
  rw [found, Reports, ReadFault.at, inside] at read
  rw [decision_eq, read]

/-- A fault outside of the project leaves the interface undecided. -/
theorem decision_of_outside {path : Path} {fault : Path → StructuralFault}
    (found : firstFault? tree (candidate.artifacts settings root) = some (path, fault))
    (outside : path.relativeTo? root = none) :
    candidate.decision parse settings tree root = .outside path root := by
  have read := candidate.reports settings tree root
  rw [found, Reports, ReadFault.at, outside] at read
  rw [decision_eq, read]

/-- Trees with the same artifacts decide alike. -/
theorem decision_congr {first second : FileTree} (candidate : Candidate)
    (agree : ∀ artifact ∈ candidate.artifacts settings root,
      first.content? artifact.path = second.content? artifact.path) :
    candidate.decision parse settings first root =
      candidate.decision parse settings second root := by
  have same : readArtifacts first root (.ofInterface settings.paths candidate.interface.name) =
      readArtifacts second root (.ofInterface settings.paths candidate.interface.name) := by
    simp only [Candidate.artifacts, Layout.artifacts, List.forall_mem_cons] at agree
    obtain ⟨header, implementation, wrapper, narrative, tests, -⟩ := agree
    simp only [readArtifacts, readRequired, readOptional, header, implementation, wrapper,
      narrative, tests]
  rw [decision_eq, decision_eq, same]

end InterfaceAudit.Project
