import InterfaceAudit.Proofs.Project.Containment

/-!
Matching the subjects of an interface.
An interface is inspected, which needs its name alone, and then its subjects decide what becomes of
it.
-/

namespace InterfaceAudit.Project

open Idl (Subject)

variable {parse : String → Script.Tree} {settings : Settings} {root : Path}
  {tree : FileTree} {candidate : Candidate} {result : InterfaceResult}

/-! ### Inspection -/

/-- What is known about an interface from its texts and the class of its wrapper. -/
def evidenceOf (parse : String → Script.Tree) (settings : Settings) (interface : String)
    (texts : ArtifactTexts) (wrapper : WrapperSymbols) : Evidence where
  interface
  layout := .ofInterface settings.paths interface
  symbols :=
    { header := Native.readHeader settings.parsing.returnTypes texts.header
      implementation := Native.readImplementation interface texts.implementation
      wrapper }
  narrative := texts.narrative.map (Narrative.read settings.parsing.lookahead.val)
  tests := texts.tests.map fun text =>
    TestSymbols.ofTree settings.parsing.vocabulary (parse (String.ofList text))

/-- An interface is inspected when its artifacts can be read and its wrapper declares a class. -/
def inspect (parse : String → Script.Tree) (settings : Settings) (tree : FileTree) (root : Path)
    (interface : String) : Except ReadFault (ArtifactTexts × Evidence) :=
  match readArtifacts tree root (.ofInterface settings.paths interface) with
  | .error fault => .error fault
  | .ok texts =>
    match WrapperSymbols.ofTree? (parse (String.ofList texts.wrapper)) with
    | none =>
      .error (.structural (.noClass (Layout.ofInterface settings.paths interface).wrapper))
    | some wrapper => .ok (texts, evidenceOf parse settings interface texts wrapper)

/-- What becomes of an interface whose subjects are matched. -/
def Matches.outcome (settings : Settings) (interface : Idl.Interface) (texts : ArtifactTexts)
    (matched : Matches) : Outcome :=
  if matched.missing.isEmpty then
    .audited (auditDocument settings interface (.ofInterface settings.paths interface.name) texts
      matched.features)
  else .unmatched matched.missing

/-- An interface is faulty without a class, and is matched with one. -/
theorem auditInterface_eq (parse : String → Script.Tree) (settings : Settings)
    (interface : Idl.Interface) (subjects : List Subject) (texts : ArtifactTexts) :
    (auditInterface parse settings interface subjects texts).1 =
      match WrapperSymbols.ofTree? (parse (String.ofList texts.wrapper)) with
      | none => .faulty (.noClass (Layout.ofInterface settings.paths interface.name).wrapper)
      | some wrapper =>
        ((evidenceOf parse settings interface.name texts wrapper).matchSubjects
          settings.generation.policy subjects).outcome settings interface texts := by
  unfold auditInterface Matches.outcome
  cases WrapperSymbols.ofTree? (parse (String.ofList texts.wrapper)) with
  | none => rfl
  | some wrapper => exact apply_ite Prod.fst _ _ _

/-- A candidate is settled by what its inspection finds. -/
theorem settles_inspect (settles : Settles (candidate.decision parse settings tree root) result) :
    (∃ fault, inspect parse settings tree root candidate.interface.name =
          .error (.structural fault) ∧
        result = ⟨candidate.interface.name, .faulty fault⟩) ∨
      ∃ texts evidence,
        inspect parse settings tree root candidate.interface.name = .ok (texts, evidence) ∧
        result = ⟨candidate.interface.name,
          (evidence.matchSubjects settings.generation.policy candidate.subjects).outcome settings
            candidate.interface texts⟩ := by
  obtain ⟨events, decided⟩ := settles
  rw [decision_eq] at decided
  unfold inspect
  cases read : readArtifacts tree root (.ofInterface settings.paths candidate.interface.name) with
  | error fault =>
    rw [read] at decided
    cases fault with
    | structural fault => exact .inl ⟨fault, rfl, (Decision.decided.inj decided).1.symm⟩
    | outside path other => contradiction
  | ok texts =>
    rw [read] at decided
    have settled : result = ⟨candidate.interface.name,
        (auditInterface parse settings candidate.interface candidate.subjects texts).1⟩ :=
      (Decision.decided.inj decided).1.symm
    rw [settled, auditInterface_eq]
    dsimp only
    cases WrapperSymbols.ofTree? (parse (String.ofList texts.wrapper)) with
    | none => exact .inl ⟨_, rfl, rfl⟩
    | some wrapper => exact .inr ⟨texts, _, rfl, rfl⟩

end InterfaceAudit.Project
