import Mathlib.Data.List.Forall2
import InterfaceAudit.Project.Generate
import InterfaceAudit.Proofs.Project.Artifacts
import InterfaceAudit.Proofs.Project.Effect
import InterfaceAudit.Proofs.Project.FileTree

/-!
Containment of faults.
A fault of an artifact stays with its interface, and a fault of the interface definition file stops
a run before it changes anything.
-/

namespace InterfaceAudit.Project

variable {First Second Value : Type} {parse : String → Script.Tree} {settings : Settings}
  {root directory : Path} {tree after : FileTree}

/-! ### Plans -/

def idlPath (settings : Settings) (root : Path) : Path := root.join settings.paths.idlFile

def outputDirectory (settings : Settings) (root : Path) : Path :=
  root.join settings.paths.outputDirectory

/-- What a run will do for the definitions of a document. -/
def planFor (parse : String → Script.Tree) (settings : Settings) (root : Path)
    (tree : FileTree) (document : Idl.Document) : Plan where
  outputDirectory := outputDirectory settings root
  decisions := (candidates document).map (Candidate.decision parse settings tree root)
  skipped := skippedNames document
  types := Audit.types settings.paths.idlFile.toString document
  events := .idlParsed (idlPath settings root) document.definitions.length ::
    (skippedNames document).map .interfaceSkipped

/-- A plan is made for the document that is read. -/
theorem plan_eq (parse : String → Script.Tree) (settings : Settings) (root : Path)
    (tree : FileTree) :
    plan parse settings root tree =
      (readIdl tree (idlPath settings root)).map (planFor parse settings root tree) := by
  unfold plan idlPath
  dsimp only
  cases readIdl tree (root.join settings.paths.idlFile) <;> rfl

/-! ### Settled decisions -/

/-- A decided result is settled wherever its document may be written. -/
theorem settle_decided (settings : Settings) {result : InterfaceResult} (events : List Event)
    (writable : tree.Writable (documentPath directory result.interface)) :
    ∃ after, settle settings directory (.decided result events) tree = (.ok result, after) ∧
      tree.SameDirectories after := by
  have changed : ∃ after, settleDocument settings directory result tree = .ok after ∧
      tree.SameDirectories after := by
    unfold settleDocument
    cases result.document? with
    | some document => exact writable.write _
    | none => exact writable.remove
  obtain ⟨after, settled, same⟩ := changed
  refine ⟨after, ?_, same⟩
  exact settle_eq_ok.mpr ⟨rfl, settled⟩

/-- A settled decision has a result. -/
def Settles (decision : Decision) (result : InterfaceResult) : Prop :=
  ∃ events, decision = .decided result events

/-- Decisions with results are settled one after the other. -/
theorem forEach_settle (settings : Settings) {decisions : List Decision}
    (decided : ∀ decision ∈ decisions, ∃ result, Settles decision result ∧
      tree.Writable (documentPath directory result.interface)) :
    ∃ results after,
      Effect.forEach (settle settings directory) decisions tree = (.ok results, after) ∧
        tree.SameDirectories after := by
  induction decisions generalizing tree with
  | nil => exact ⟨[], tree, rfl, .refl tree⟩
  | cons decision decisions inductionHypothesis =>
    obtain ⟨result, ⟨events, rfl⟩, writable⟩ := decided decision (List.mem_cons_self ..)
    obtain ⟨middle, first, same⟩ := settle_decided settings events writable
    have decidedMiddle (other : Decision) (member : other ∈ decisions) :
        ∃ result, Settles other result ∧
          middle.Writable (documentPath directory result.interface) := by
      obtain ⟨result, settles, writable⟩ := decided other (List.mem_cons_of_mem _ member)
      exact ⟨result, settles, (FileTree.Writable.congr same).mp writable⟩
    obtain ⟨results, after, others, next⟩ := inductionHypothesis decidedMiddle
    refine ⟨result :: results, after, ?_, same.trans next⟩
    simp only [Effect.forEach, Effect.andThen, first, others]

/-- A decision that is carried out was a settled one. -/
theorem settles_of_settle {decision : Decision} {result : InterfaceResult}
    (ran : settle settings directory decision tree = (.ok result, after)) :
    Settles decision result := by
  cases decision with
  | outside path root => exact absurd (Prod.mk.inj ran).1 nofun
  | decided other events =>
    obtain ⟨rfl, -⟩ := settle_eq_ok.mp ran
    exact ⟨events, rfl⟩

/-- All decisions of a run that goes through are settled. -/
theorem settles_of_forEach {decisions : List Decision} {results : List InterfaceResult}
    (ran : Effect.forEach (settle settings directory) decisions tree = (.ok results, after)) :
    List.Forall₂ Settles decisions results := by
  induction decisions generalizing tree results with
  | nil =>
    obtain rfl := Except.ok.inj (Prod.mk.inj ran).1
    exact .nil
  | cons decision decisions inductionHypothesis =>
    obtain ⟨result, middle, rest, first, others, rfl⟩ := Effect.forEach_cons_eq_ok.mp ran
    exact .cons (settles_of_settle first) (inductionHypothesis others)

/-! ### Faults of a plan that is carried out -/

/-- Every fault of the effect comes after the interface definition file was read. -/
def Late (effect : Effect Value) : Prop :=
  ∀ ⦃tree after : FileTree⦄ ⦃fault : RunFault⦄, effect tree = (.error fault, after) →
    fault.isStructural = false

namespace Late

theorem answer (value : Value) : Late fun tree => (.ok value, tree) :=
  fun _ _ _ ran => absurd (Prod.mk.inj ran).1 nofun

/-- What fails late on both sides fails late in a row. -/
theorem andThen {first : Effect First} {second : First → Effect Second} (firstLate : Late first)
    (secondLate : ∀ value, Late (second value)) : Late (first.andThen second) := by
  intro tree after fault ran
  rcases Effect.andThen_eq_error ran with failed | ⟨value, middle, failed⟩
  · exact firstLate failed
  · exact secondLate value failed

/-- A change fails with a fault of the tree, which is not structural. -/
theorem change (action : FileTree → Except FileFault FileTree) : Late (Effect.change action) := by
  intro tree after fault ran
  unfold Effect.change at ran
  split at ran
  · exact absurd (Prod.mk.inj ran).1 nofun
  · obtain rfl := Except.error.inj (Prod.mk.inj ran).1
    rfl

/-- Making the output directory fails with a fault of the tree. -/
theorem makeOutput (directory : Path) : Late (Effect.makeOutput directory) := by
  intro tree after fault ran
  unfold Effect.makeOutput at ran
  split at ran
  · exact absurd (Prod.mk.inj ran).1 nofun
  · obtain rfl := Except.error.inj (Prod.mk.inj ran).1
    rfl

/-- Settling a decision fails late. -/
theorem settle (settings : Settings) (directory : Path) (decision : Decision) :
    Late (settle settings directory decision) := by
  cases decision with
  | outside path root =>
    intro tree after fault ran
    obtain rfl := Except.error.inj (Prod.mk.inj ran).1
    rfl
  | decided result events => exact (change _).andThen fun _ => answer result

/-- Settling decisions one after the other fails late. -/
theorem forEach {effect : First → Effect Second} (late : ∀ item, Late (effect item))
    (items : List First) : Late (Effect.forEach effect items) := by
  induction items with
  | nil => exact answer []
  | cons item items inductionHypothesis =>
    exact (late item).andThen fun _ => inductionHypothesis.andThen fun _ => answer _

theorem plan (plan : Plan) (settings : Settings) : Late (plan.settle settings) :=
  (makeOutput _).andThen fun _ => (forEach (settle settings _) _).andThen fun _ =>
    (change _).andThen fun _ => answer _

end Late

/-! ### Containment -/

/-- The output directory can be made, and the documents can be written in it. -/
structure OutputWritable (settings : Settings) (root : Path) (tree : FileTree) : Prop where
  made : (tree.ensureDirectories (outputDirectory settings root)).2 = none
  types : (tree.ensureDirectories (outputDirectory settings root)).1.Writable
    (typesPath (outputDirectory settings root))
  documents : ∀ document, readIdl tree (idlPath settings root) = .ok document →
    ∀ candidate ∈ candidates document,
      (tree.ensureDirectories (outputDirectory settings root)).1.Writable
        (documentPath (outputDirectory settings root) candidate.interface.name)

/-- The first artifact at fault shows up in the result of the interface. -/
structure Contained (settings : Settings) (root : Path) (tree : FileTree) (candidate : Candidate)
    (result : InterfaceResult) : Prop where
  interface : result.interface = candidate.interface.name
  fault : ∀ path fault,
    firstFault? tree (candidate.artifacts settings root) = some (path, fault) →
      ∃ relative, path.relativeTo? root = some relative ∧ result.fault? = some (fault relative)

/-- Either every fault of an artifact is contained in a report, or a fault of the interface
definition file has left the tree as it was. -/
def Contains (settings : Settings) (root : Path) (tree : FileTree) :
    Except RunFault Report × FileTree → Prop
  | (.ok report, _) =>
    ∃ document, readIdl tree (idlPath settings root) = .ok document ∧
      List.Forall₂ (Contained settings root tree) (candidates document) report.results
  | (.error fault, after) =>
    (fault = .missingIdl (idlPath settings root) ∨ ∃ error, fault = .invalidIdl error) ∧
      after = tree

/-- The first artifact at fault, if there is one, lies inside of the project. -/
def FaultInside (settings : Settings) (root : Path) (tree : FileTree) (candidate : Candidate) :
    Prop :=
  ∀ fault ∈ firstFault? tree (candidate.artifacts settings root),
    fault.1.relativeTo? root ≠ none

/-- A fault inside the project is contained in the result of its interface. -/
theorem decision_of_inside {candidate : Candidate}
    (inside : FaultInside settings root tree candidate) :
    ∃ result, Settles (candidate.decision parse settings tree root) result ∧
      Contained settings root tree candidate result := by
  cases found : firstFault? tree (candidate.artifacts settings root) with
  | none =>
    obtain ⟨outcome, events, decided⟩ := decision_of_sound found
    refine ⟨_, ⟨events, decided⟩, rfl, ?_⟩
    intro path fault other
    rw [found] at other
    contradiction
  | some pair =>
    obtain ⟨path, fault⟩ := pair
    obtain ⟨relative, isRelative⟩ := Option.ne_none_iff_exists'.mp (inside (path, fault) found)
    refine ⟨_, ⟨[], decision_of_fault found isRelative⟩, rfl, ?_⟩
    intro other otherFault otherFound
    rw [found] at otherFound
    obtain ⟨rfl, rfl⟩ := Prod.mk.inj (Option.some.inj otherFound)
    exact ⟨relative, isRelative, rfl⟩

/-- A settled decision has no fault outside the project. -/
theorem inside_of_settles {candidate : Candidate} {result : InterfaceResult}
    (settled : Settles (candidate.decision parse settings tree root) result) :
    FaultInside settings root tree candidate := by
  rintro ⟨path, fault⟩ found outside
  obtain ⟨events, decided⟩ := settled
  rw [decision_of_outside found outside] at decided
  contradiction

/-- A settled decision contains the fault of its artifacts. -/
theorem contained_of_settles {candidate : Candidate} {result : InterfaceResult}
    (settled : Settles (candidate.decision parse settings tree root) result) :
    Contained settings root tree candidate result := by
  obtain ⟨other, ⟨events, decided⟩, contained⟩ := decision_of_inside (inside_of_settles settled)
  obtain ⟨otherEvents, otherDecided⟩ := settled
  rw [decided] at otherDecided
  obtain ⟨rfl, -⟩ := Decision.decided.inj otherDecided
  exact contained

/-- Every candidate of a plan that is carried out is settled, in its order. -/
theorem settles_of_plan {document : Idl.Document} {report : Report}
    (ran : (planFor parse settings root tree document).settle settings tree = (.ok report, after)) :
    List.Forall₂ (fun candidate => Settles (Candidate.decision parse settings tree root candidate))
      (candidates document) report.results := by
  obtain ⟨made, results, left, -, settled, -, rfl⟩ := Plan.settle_eq_ok.mp ran
  exact List.forall₂_map_left_iff.mp (settles_of_forEach settled)

/-- The results of a plan are those of its candidates, in their order. -/
theorem interfaces_of_plan {document : Idl.Document} {report : Report}
    (ran : (planFor parse settings root tree document).settle settings tree = (.ok report, after)) :
    report.results.map InterfaceResult.interface =
      (candidates document).map fun candidate => candidate.interface.name := by
  have named : List.Forall₂ (· = ·) (report.results.map InterfaceResult.interface)
      ((candidates document).map fun candidate => candidate.interface.name) := by
    rw [List.forall₂_map_left_iff, List.forall₂_map_right_iff]
    exact (settles_of_plan ran).flip.imp fun _ _ settles =>
      (contained_of_settles settles).interface
  rwa [List.forall₂_eq_eq_eq] at named

/-- A plan goes through when every fault lies inside of the project. -/
theorem plan_of_inside {document : Idl.Document} (writable : OutputWritable settings root tree)
    (read : readIdl tree (idlPath settings root) = .ok document)
    (inside : ∀ candidate ∈ candidates document, FaultInside settings root tree candidate) :
    ∃ report after,
      (planFor parse settings root tree document).settle settings tree = (.ok report, after) := by
  obtain ⟨made, types, documents⟩ := writable
  cases ensured : tree.ensureDirectories (outputDirectory settings root) with
  | mk output fault =>
    rw [ensured] at made types documents
    obtain rfl := made
    have decided : ∀ decision ∈ (planFor parse settings root tree document).decisions,
        ∃ result, Settles decision result ∧
          output.Writable (documentPath (outputDirectory settings root) result.interface) := by
      intro decision member
      obtain ⟨candidate, candidateMember, rfl⟩ := List.mem_map.mp member
      obtain ⟨result, settles, contained⟩ := decision_of_inside (inside candidate candidateMember)
      refine ⟨result, settles, ?_⟩
      rw [contained.interface]
      exact documents document read candidate candidateMember
    obtain ⟨results, left, settled, same⟩ := forEach_settle settings decided
    have typesLeft := (FileTree.Writable.congr same).mp types
    obtain ⟨after, written, -⟩ := typesLeft.write
      (documentBytes settings (planFor parse settings root tree document).types.json)
    refine ⟨(planFor parse settings root tree document).report results, after, ?_⟩
    unfold Plan.settle
    refine Effect.andThen_eq_ok.mpr ⟨(), output, ?_, Effect.andThen_eq_ok.mpr
      ⟨results, left, settled, Effect.andThen_eq_ok.mpr ⟨(), after, ?_, rfl⟩⟩⟩
    · simp only [Effect.makeOutput, planFor, ensured]
    · exact Effect.change_eq_ok.mpr written

/-- The interface definition file is text, if it is there. -/
def IdlDecodable (settings : Settings) (root : Path) (tree : FileTree) : Prop :=
  ∀ content, tree.content? (idlPath settings root) = some content →
    ∃ text, Text.decodeUtf8 content = .ok text

/-- The interface definition file is missing, not decodable or not valid. -/
theorem readIdl_error {path : Path} {fault : RunFault} (failed : readIdl tree path = .error fault) :
    fault = .missingIdl path ∨ (∃ error, fault = .undecodableIdl error) ∨
      ∃ error, fault = .invalidIdl error := by
  unfold readIdl at failed
  split at failed
  · exact .inl (Except.error.inj failed).symm
  · split at failed
    · next error _ => exact .inr (.inl ⟨error, (Except.error.inj failed).symm⟩)
    · next text _ =>
      cases parsed : Idl.Document.parse text with
      | error error =>
        rw [parsed] at failed
        exact .inr (.inr ⟨error, (Except.error.inj failed).symm⟩)
      | ok document =>
        rw [parsed] at failed
        contradiction

/-- A file is decodable unless reading it fails for that reason. -/
theorem idlDecodable_iff :
    IdlDecodable settings root tree ↔
      ∀ error, readIdl tree (idlPath settings root) ≠ .error (.undecodableIdl error) := by
  unfold IdlDecodable readIdl textOf
  cases tree.content? (idlPath settings root) with
  | none => simp
  | some content =>
    simp only [Option.some.injEq, forall_eq']
    cases Text.decodeUtf8 content with
    | error error => simp [Except.map]
    | ok text =>
      simp only [Except.map, Except.ok.injEq, exists_eq', true_iff]
      intro error
      cases Idl.Document.parse (Text.universalNewlines text) <;> nofun

/-- A run contains every fault exactly when the interface definition file is text, if it is there,
and no first artifact at fault lies outside of the project. The condition is exact for the trees of
`FileTree`, which refuse no path for its length or for a lack of permissions. The look whether an
artifact is a file stands outside of what turns failures into reports, so a refusal there would
leave the run as well. -/
theorem generate_contains_iff (parse : String → Script.Tree) (settings : Settings)
    (root : Path) (state : RunState)
    (writable : OutputWritable settings root state.tree) :
    Contains settings root state.tree
        (((generateWith parse settings root).run state).1,
          ((generateWith parse settings root).run state).2.tree) ↔
      IdlDecodable settings root state.tree ∧
        ∀ document, readIdl state.tree (idlPath settings root) = .ok document →
          ∀ candidate ∈ candidates document,
            FaultInside settings root state.tree candidate := by
  rw [HasEffect.generateWith parse settings root state, generated, plan_eq, idlDecodable_iff]
  cases read : readIdl state.tree (idlPath settings root) with
  | error fault =>
    simp only [Except.map, Contains, and_true, reduceCtorEq, false_implies, implies_true, ne_eq,
      Except.error.injEq]
    rcases readIdl_error read with rfl | ⟨error, rfl⟩ | ⟨error, rfl⟩
    · simp
    · simp
    · simp
  | ok document =>
    simp only [Except.map]
    constructor
    · intro contains
      refine ⟨nofun, ?_⟩
      intro other same
      obtain rfl := Except.ok.inj same
      cases ran : (planFor parse settings root state.tree document).settle settings state.tree with
      | mk answer after =>
        rw [ran] at contains
        cases answer with
        | ok report =>
          have settled := (settles_of_plan ran).imp fun _ _ settles =>
            And.intro (inside_of_settles settles) settles
          exact ((List.forall₂_and_left _ _).mp settled).1
        | error fault =>
          have late := Late.plan _ settings ran
          rcases contains.1 with rfl | ⟨error, rfl⟩
          · contradiction
          · contradiction
    · rintro ⟨-, inside⟩
      obtain ⟨report, after, ran⟩ := plan_of_inside writable read (inside document rfl)
      rw [ran]
      refine ⟨document, read, ?_⟩
      exact (settles_of_plan ran).imp fun _ _ => contained_of_settles

/-- The header of the only interface of this project is no text. -/
def undecodableHeader : FileTree where
  entries :=
    [(["spec"], .directory), (["spec", "context"], .directory), (["src"], .directory),
      (["spec", "context", "_webcodecs.idl"],
        .file (Text.encodeUtf8 "interface A { attribute long a; };".toList)),
      (["src", "A.h"], .file [0x61, 0xFF])]

/-- An undecodable header leaves the run and its other interfaces alone. -/
theorem generate_contains_undecodableHeader :
    OutputWritable {} (.ofString "/") undecodableHeader ∧
      Contains {} (.ofString "/") undecodableHeader
        (((generate {} (.ofString "/")).run ⟨undecodableHeader, []⟩).1,
          ((generate {} (.ofString "/")).run ⟨undecodableHeader, []⟩).2.tree) := by
  let member : Idl.Member := .attribute { name := "a", type := "long" }
  let document : Idl.Document :=
    ⟨[.interface { name := "A", members := [member], span := some ⟨1, 1⟩ }]⟩
  have read : readIdl undecodableHeader (idlPath {} (.ofString "/")) = .ok document := by
    decide +kernel
  have only {other : Idl.Document}
      (found : readIdl undecodableHeader (idlPath {} (.ofString "/")) = .ok other) :
      other = document := Except.ok.inj (found.symm.trans read)
  have writable : OutputWritable {} (.ofString "/") undecodableHeader := by
    refine ⟨by decide +kernel, by decide +kernel, ?_⟩
    intro other found
    rw [only found]
    decide +kernel
  refine ⟨writable, (generate_contains_iff Script.Tree.ofText {} (.ofString "/")
    ⟨undecodableHeader, []⟩ writable).mpr ⟨?_, ?_⟩⟩
  · rw [idlDecodable_iff, read]
    exact nofun
  · intro other found
    rw [only found]
    unfold FaultInside
    decide +kernel

end InterfaceAudit.Project
