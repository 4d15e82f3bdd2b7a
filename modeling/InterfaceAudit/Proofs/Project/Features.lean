import InterfaceAudit.Proofs.Project.Isolation
import InterfaceAudit.Proofs.Project.Matching
import InterfaceAudit.Proofs.Table

/-!
Features of an audit document.
Every member with code of its own has one feature, in the order of the members, and it says where
the member is found and how it is verified.
-/

namespace InterfaceAudit

open Idl (Document Member Subject)

namespace Idl

/-- Attributes, operations with a name and constructors have code of their own. -/
def Member.hasCode : Member → Bool
  | .attribute _ | .constructor _ => true
  | .operation member => member.name.isSome
  | .constant _ | .collection _ => false

/-- Exactly the members with code are subjects. -/
theorem Member.isSome_subject? (member : Member) : member.subject?.isSome = member.hasCode := by
  cases member with
  | operation member => exact Option.isSome_map
  | _ => rfl

/-- The subjects are those of the members with code, in their order. -/
theorem forall₂_subject? (members : List Member) :
    List.Forall₂ (fun member subject => member.subject? = some subject)
      (members.filter Member.hasCode) (members.filterMap Member.subject?) := by
  induction members with
  | nil => exact .nil
  | cons member members inductionHypothesis =>
    have hasCode := member.isSome_subject?
    cases found : member.subject? with
    | none =>
      rw [found] at hasCode
      rwa [List.filter_cons_of_neg (by simp [← hasCode]), List.filterMap_cons_none found]
    | some subject =>
      rw [found] at hasCode
      rw [List.filter_cons_of_pos hasCode.symm, List.filterMap_cons_some found]
      exact .cons found inductionHypothesis

end Idl

/-! ### Steps -/

namespace Audit

/-- The kind of a subject, with the two kinds of methods apart. -/
def categoryOf : Subject → Category
  | .attribute _ => .attribute
  | .method _ member => if member.isStatic then .staticMethod else .method
  | .constructor _ => .constructor

/-- Steps are numbered by their positions. -/
theorem numberedSteps_eq_mapIdx (featureId : String) (codeRef : Option CodeLink)
    (texts : List String) (number : Nat) :
    numberedSteps featureId codeRef number texts = texts.mapIdx fun position text =>
      { id := featureId ++ ".step-" ++ toString (position + number), description := text,
        codeRef } := by
  induction texts generalizing number with
  | nil => rfl
  | cons text texts inductionHypothesis =>
    rw [numberedSteps, inductionHypothesis, List.mapIdx_cons, Nat.zero_add]
    have shift (position : Nat) : position + (number + 1) = position + 1 + number := by omega
    simp only [shift]

/-- The link that the steps of a feature refer to. -/
def stepRef (links : CrossReference) : Option CodeLink := links.implementation.or links.declaration

/-- The steps of a feature follow its algorithm steps one by one, or a single one verifies the
declaration. -/
structure Verifies (featureId : String) (algorithmSteps : List String) (links : CrossReference)
    (steps : List Step) : Prop where
  notEmpty : steps ≠ []
  single : algorithmSteps = [] → steps.map Step.id = [featureId ++ ".verify"]
  numbered : algorithmSteps ≠ [] →
    steps = algorithmSteps.mapIdx fun position text =>
      { id := featureId ++ ".step-" ++ toString (position + 1), description := text,
        codeRef := stepRef links }
  codeRef : ∀ step ∈ steps, step.codeRef = stepRef links
  passes : ∀ step ∈ steps, step.passes = false

/-- The steps of a feature verify it, with an algorithm or without one. -/
theorem verificationSteps_verifies (featureId name : String) (algorithmSteps : List String)
    (links : CrossReference) :
    Verifies featureId algorithmSteps links
      (verificationSteps featureId name algorithmSteps links) := by
  cases algorithmSteps with
  | nil =>
    refine ⟨List.cons_ne_nil _ _, fun _ => rfl, fun absent => absurd rfl absent, ?_, ?_⟩
    · exact fun step member => List.mem_singleton.mp member ▸ rfl
    · exact fun step member => List.mem_singleton.mp member ▸ rfl
  | cons text texts =>
    have numbered : verificationSteps featureId name (text :: texts) links = _ :=
      numberedSteps_eq_mapIdx featureId (stepRef links) (text :: texts) 1
    have each (step : Step)
        (member : step ∈ verificationSteps featureId name (text :: texts) links) :
        step.codeRef = stepRef links ∧ step.passes = false := by
      rw [numbered] at member
      obtain ⟨position, _, rfl⟩ := List.mem_mapIdx.mp member
      exact ⟨rfl, rfl⟩
    exact ⟨nofun, nofun, fun _ => numbered, fun step member => (each step member).1,
      fun step member => (each step member).2⟩

end Audit

/-! ### Features -/

namespace Project

variable {parse : String → Script.Tree} {settings : Settings} {evidence : Evidence}
  {subject : Subject}

/-- What a feature says about a subject for which there is some evidence. -/
structure Describes (evidence : Evidence) (subject : Subject) (feature : Audit.Feature) : Prop where
  id : feature.id = evidence.interface ++ "." ++ subject.name
  category : feature.category = Audit.categoryOf subject
  links : ∃ links,
    resolve evidence.interface subject evidence.symbols evidence.layout.linked = .ok links ∧
      feature.codeLinks = { links with test := evidence.testLink subject }
  tested : feature.codeLinks.test.isSome ↔
    ∃ tests, evidence.tests = some tests ∧ tests.groups.contains subject.name
  algorithmSteps : feature.algorithmSteps =
    ((evidence.narrative.bind fun narrative => narrative.methods.get? subject.name).map
      Algorithm.steps).getD []
  steps : Audit.Verifies feature.id feature.algorithmSteps feature.codeLinks feature.steps
  passes : feature.passes = false

/-- A subject is linked to a test when a group has its name. -/
theorem Evidence.isSome_testLink (evidence : Evidence) (subject : Subject) :
    (evidence.testLink subject).isSome ↔
      ∃ tests, evidence.tests = some tests ∧ tests.groups.contains subject.name := by
  unfold testLink
  cases evidence.tests with
  | none => simp
  | some tests =>
    simp only [Option.some.injEq, exists_eq_left', Table.contains_eq_isSome]
    cases found : tests.groups.get? subject.name <;> simp [found]

/-- The feature of a resolved subject describes it in every part. -/
theorem feature_describes {links : CrossReference}
    (resolved : resolve evidence.interface subject evidence.symbols evidence.layout.linked =
      .ok links) :
    Describes evidence subject
      (Audit.feature evidence.interface subject { links with test := evidence.testLink subject }
        evidence.narrative evidence.layout.narrativeRef) := by
  have tested := evidence.isSome_testLink subject
  cases subject with
  | «attribute» member | constructor member =>
    exact ⟨rfl, rfl, ⟨links, resolved, rfl⟩, tested, rfl,
      Audit.verificationSteps_verifies .., rfl⟩
  | method name member =>
    exact ⟨rfl, rfl, ⟨links, resolved, rfl⟩, tested, rfl,
      Audit.verificationSteps_verifies .., rfl⟩

/-- Subjects that all have their symbols are matched one by one. -/
theorem matchSubjects_describes (policy : Settings.MissingSymbolPolicy) {subjects : List Subject}
    (sound : (evidence.matchSubjects policy subjects).missing = []) :
    List.Forall₂ (Describes evidence) subjects
      (evidence.matchSubjects policy subjects).features := by
  induction subjects with
  | nil => exact .nil
  | cons subject subjects inductionHypothesis =>
    cases resolved :
        resolve evidence.interface subject evidence.symbols evidence.layout.linked with
    | ok links =>
      have matched : evidence.matchSubject subject = .ok
          (Audit.feature evidence.interface subject { links with test := evidence.testLink subject }
              evidence.narrative evidence.layout.narrativeRef,
            .memberMatched evidence.interface subject.name :: evidence.mismatch subject) := by
        unfold Evidence.matchSubject
        rw [resolved]
        rfl
      simp only [Evidence.matchSubjects, matched] at sound ⊢
      exact .cons (feature_describes resolved) (inductionHypothesis sound)
    | error missing =>
      have failed : evidence.matchSubject subject = .error missing := by
        unfold Evidence.matchSubject
        rw [resolved]
        rfl
      cases policy <;> simp only [Evidence.matchSubjects, failed, reduceCtorEq] at sound

/-- An interface is audited when no symbol is missing. -/
theorem Matches.outcome_eq_audited {interface : Idl.Interface} {texts : ArtifactTexts}
    {matched : Matches} {audit : Audit.InterfaceDocument} :
    matched.outcome settings interface texts = .audited audit ↔
      matched.missing = [] ∧
        auditDocument settings interface (.ofInterface settings.paths interface.name) texts
          matched.features = audit := by
  unfold outcome
  cases matched.missing with
  | nil => simp
  | cons missing others => simp

/-- A result that is written has its document. -/
theorem exists_audited {result : InterfaceResult} (written : result.isWritten = true) :
    ∃ audit, result.outcome = .audited audit := by
  obtain ⟨interface, outcome⟩ := result
  cases outcome with
  | audited audit => exact ⟨audit, rfl⟩
  | unmatched missing | faulty fault => contradiction

/-- The features of a document describe the subjects of its interface one by one. -/
theorem describes_of_audited {interface : Idl.Interface} {subjects : List Subject}
    {texts : ArtifactTexts} {audit : Audit.InterfaceDocument}
    (audited : (auditInterface parse settings interface subjects texts).1 = .audited audit) :
    ∃ wrapper, WrapperSymbols.ofTree? (parse (String.ofList texts.wrapper)) = some wrapper ∧
      List.Forall₂ (Describes (evidenceOf parse settings interface.name texts wrapper)) subjects
        audit.features := by
  rw [auditInterface_eq] at audited
  cases declared : WrapperSymbols.ofTree? (parse (String.ofList texts.wrapper)) with
  | none =>
    rw [declared] at audited
    contradiction
  | some wrapper =>
    rw [declared] at audited
    obtain ⟨sound, rfl⟩ := Matches.outcome_eq_audited.mp audited
    exact ⟨wrapper, rfl, matchSubjects_describes settings.generation.policy sound⟩

/-- An audit document has one feature for each member with code of its own, in the order of the
members: those of the interface, of its parts and of its mixins. -/
theorem auditInterface_describes {document : Document} {interface : Idl.Interface}
    {texts : ArtifactTexts} {audit : Audit.InterfaceDocument}
    (audited :
      (auditInterface parse settings interface (document.subjectsOf interface.name) texts).1 =
        .audited audit) :
    ∃ wrapper, WrapperSymbols.ofTree? (parse (String.ofList texts.wrapper)) = some wrapper ∧
      List.Forall₂
        (fun member feature => ∃ subject, member.subject? = some subject ∧
          Describes (evidenceOf parse settings interface.name texts wrapper) subject feature)
        ((document.membersOf interface.name).filter Member.hasCode) audit.features := by
  obtain ⟨wrapper, declared, described⟩ := describes_of_audited audited
  refine ⟨wrapper, declared, ?_⟩
  exact forall₂_of_common (Idl.forall₂_subject? (document.membersOf interface.name)).flip described
    fun subject _ _ found describes => ⟨subject, found, describes⟩

/-- An interface with a method, a constant and a part, and a mixin for it. -/
def assembled : Idl.Interface where
  name := "A"
  members :=
    [.constant { name := "LIMIT", type := "long", value := "1" },
      .operation { name := some "run", returnType := "undefined" }]

def assembledDocument : Document where
  definitions :=
    [.interface { name := "M", kind := .mixin, members := [.constructor {}] },
      .inclusion { target := "A", mixin := "M" },
      .interface { name := "A", isPartial := true,
                   members := [.operation { name := some "stop", returnType := "undefined",
                                            isStatic := true }] },
      .interface assembled]

def assembledTexts : ArtifactTexts where
  header := "class A \x7b\n  void Run(int x);\n  static void Stop(int x);\n\x7d;\n".toList
  implementation := "void A::Run(int x) \x7b\n\x7d\nvoid A::Stop(int x) \x7b\n\x7d\n".toList
  wrapper := "class A \x7b\n  run() \x7b\x7d\n  static stop() \x7b\x7d\n\x7d\n".toList
  narrative := none
  tests := some "describe('run', f);\n".toList

/-- The constant has no feature; those of the method, of the part and of the mixin are in order. -/
theorem auditInterface_describes_assembled :
    ∃ audit, (auditInterface Script.Tree.ofText {} assembled (assembledDocument.subjectsOf "A")
        assembledTexts).1 = .audited audit ∧ audit.features.length = 3 := by
  have written : (InterfaceResult.mk "A" (auditInterface Script.Tree.ofText {} assembled
      (assembledDocument.subjectsOf "A") assembledTexts).1).isWritten = true := by
    decide +kernel
  obtain ⟨audit, audited⟩ := exists_audited written
  obtain ⟨wrapper, -, described⟩ := auditInterface_describes audited
  have members : ((assembledDocument.membersOf "A").filter Member.hasCode).length = 3 := by
    decide +kernel
  exact ⟨audit, audited, described.length_eq.symm.trans members⟩

end Project

end InterfaceAudit
