import InterfaceAudit.Proofs.Project.Isolation
import InterfaceAudit.Proofs.Project.Matching

/-!
Policies for missing symbols.
Whether an interface stops at its first missing symbol or collects all of them, the same interfaces
are audited, with the same documents.
-/

namespace InterfaceAudit.Project

open Idl (Subject)
open Settings (MissingSymbolPolicy)

variable {parse : String → Script.Tree} {settings : Settings} {root directory : Path}
  {tree : FileTree}

/-! ### Matching -/

namespace Evidence

/-- The missing symbols of some subjects, in their order. -/
def errors (evidence : Evidence) (subjects : List Subject) : List MissingSymbol :=
  subjects.filterMap fun subject =>
    match resolve evidence.interface subject evidence.symbols evidence.layout.linked with
    | .error missing => some missing
    | .ok _ => none

variable {evidence : Evidence} {subject : Subject} {subjects : List Subject}

/-- A member that is resolved adds no error. -/
theorem errors_cons_of_ok {links : CrossReference}
    (resolved : resolve evidence.interface subject evidence.symbols evidence.layout.linked =
      .ok links) :
    evidence.errors (subject :: subjects) = evidence.errors subjects := by
  simp only [errors, List.filterMap_cons, resolved]

/-- A member that is not resolved adds its error in front. -/
theorem errors_cons_of_error {missing : MissingSymbol}
    (resolved : resolve evidence.interface subject evidence.symbols evidence.layout.linked =
      .error missing) :
    evidence.errors (subject :: subjects) = missing :: evidence.errors subjects := by
  simp only [errors, List.filterMap_cons, resolved]

/-- A subject is matched unless a symbol is missing. -/
theorem matchSubject_cases (evidence : Evidence) (subject : Subject) :
    (∃ links matched, resolve evidence.interface subject evidence.symbols evidence.layout.linked =
        .ok links ∧ evidence.matchSubject subject = .ok matched) ∨
      ∃ missing, resolve evidence.interface subject evidence.symbols evidence.layout.linked =
        .error missing ∧ evidence.matchSubject subject = .error missing := by
  unfold matchSubject
  cases resolve evidence.interface subject evidence.symbols evidence.layout.linked with
  | ok links => exact .inl ⟨links, _, rfl, rfl⟩
  | error missing => exact .inr ⟨missing, rfl, rfl⟩

/-- The collecting policy reports all errors. -/
theorem matchSubjects_all_missing (evidence : Evidence) (subjects : List Subject) :
    (evidence.matchSubjects .all subjects).missing = evidence.errors subjects := by
  induction subjects with
  | nil => rfl
  | cons subject subjects inductionHypothesis =>
    rcases matchSubject_cases evidence subject with
      ⟨links, matched, resolved, same⟩ | ⟨missing, resolved, same⟩
    · simp only [matchSubjects, same, errors_cons_of_ok resolved, inductionHypothesis]
    · simp only [matchSubjects, same, errors_cons_of_error resolved, inductionHypothesis]

/-- The stopping policy reports the first error. -/
theorem matchSubjects_first_missing (evidence : Evidence) (subjects : List Subject) :
    (evidence.matchSubjects .first subjects).missing = (evidence.errors subjects).take 1 := by
  induction subjects with
  | nil => rfl
  | cons subject subjects inductionHypothesis =>
    rcases matchSubject_cases evidence subject with
      ⟨links, matched, resolved, same⟩ | ⟨missing, resolved, same⟩
    · simp only [matchSubjects, same, errors_cons_of_ok resolved, inductionHypothesis]
    · simp only [matchSubjects, same, errors_cons_of_error resolved, List.take_succ_cons,
        List.take_zero]

/-- Without a missing symbol the policy does not matter. -/
theorem matchSubjects_of_sound (sound : evidence.errors subjects = []) :
    evidence.matchSubjects .first subjects = evidence.matchSubjects .all subjects := by
  induction subjects with
  | nil => rfl
  | cons subject subjects inductionHypothesis =>
    rcases matchSubject_cases evidence subject with
      ⟨links, matched, resolved, same⟩ | ⟨missing, resolved, same⟩
    · rw [errors_cons_of_ok resolved] at sound
      simp only [matchSubjects, same, inductionHypothesis sound]
    · rw [errors_cons_of_error resolved] at sound
      contradiction

end Evidence

/-! ### Results -/

/-- Settings with another policy. -/
def withPolicy (settings : Settings) (policy : MissingSymbolPolicy) : Settings :=
  { settings with generation := { settings.generation with policy } }

/-- The missing symbols of an interface, in the order of its subjects. -/
def Candidate.errors (parse : String → Script.Tree) (settings : Settings) (tree : FileTree)
    (root : Path) (candidate : Candidate) : List MissingSymbol :=
  match inspect parse settings tree root candidate.interface.name with
  | .ok (_, evidence) => evidence.errors candidate.subjects
  | .error _ => []

section Errors

variable {candidate : Candidate}

/-- A candidate that cannot be inspected has no missing symbols. -/
theorem Candidate.errors_of_error {fault : ReadFault}
    (inspected : inspect parse settings tree root candidate.interface.name = .error fault) :
    candidate.errors parse settings tree root = [] := by
  unfold Candidate.errors
  rw [inspected]

/-- A candidate that is inspected has the errors of its members. -/
theorem Candidate.errors_of_ok {texts : ArtifactTexts} {evidence : Evidence}
    (inspected : inspect parse settings tree root candidate.interface.name =
      .ok (texts, evidence)) :
    candidate.errors parse settings tree root = evidence.errors candidate.subjects := by
  unfold Candidate.errors
  rw [inspected]

end Errors

/-- The results of an interface under the two policies. -/
structure PoliciesAgree (parse : String → Script.Tree) (settings : Settings) (tree : FileTree)
    (root : Path) (candidate : Candidate) (first all : InterfaceResult) : Prop where
  interface : first.interface = all.interface
  written : first.isWritten = all.isWritten
  document : first.document? = all.document?
  fault : first.fault? = all.fault?
  missingOfAll : all.missingSymbols = candidate.errors parse settings tree root
  missingOfFirst : first.missingSymbols = (candidate.errors parse settings tree root).take 1

/-- The policy does not matter for an inspection. -/
theorem inspect_withPolicy (parse : String → Script.Tree) (settings : Settings)
    (policy : MissingSymbolPolicy) (tree : FileTree) (root : Path) (interface : String) :
    inspect parse (withPolicy settings policy) tree root interface =
      inspect parse settings tree root interface := by
  unfold inspect
  rfl

/-- What was matched has the same outcome under every policy. -/
theorem outcome_withPolicy (settings : Settings) (policy : MissingSymbolPolicy) (matched : Matches)
    (interface : Idl.Interface) (texts : ArtifactTexts) :
    matched.outcome (withPolicy settings policy) interface texts =
      matched.outcome settings interface texts := by
  unfold Matches.outcome
  rfl

/-- The subjects of an inspected interface are matched until a symbol is missing, or all of them
are. -/
theorem policiesAgree_of_ok {candidate : Candidate} {texts : ArtifactTexts} {evidence : Evidence}
    (inspected : inspect parse settings tree root candidate.interface.name =
      .ok (texts, evidence)) :
    PoliciesAgree parse settings tree root candidate
      ⟨candidate.interface.name, (evidence.matchSubjects .first candidate.subjects).outcome
        settings candidate.interface texts⟩
      ⟨candidate.interface.name, (evidence.matchSubjects .all candidate.subjects).outcome
        settings candidate.interface texts⟩ := by
  have errors := Candidate.errors_of_ok inspected
  have missingOfAll := evidence.matchSubjects_all_missing candidate.subjects
  have missingOfFirst := evidence.matchSubjects_first_missing candidate.subjects
  cases found : evidence.errors candidate.subjects with
  | nil =>
    rw [found] at missingOfAll errors
    rw [Evidence.matchSubjects_of_sound found, Matches.outcome, missingOfAll]
    refine ⟨rfl, rfl, rfl, rfl, errors.symm, ?_⟩
    rw [errors]
    rfl
  | cons missing others =>
    rw [found] at missingOfAll missingOfFirst errors
    rw [Matches.outcome, Matches.outcome, missingOfAll, missingOfFirst]
    refine ⟨rfl, rfl, rfl, rfl, errors.symm, ?_⟩
    rw [errors]
    rfl

/-- The results of both policies agree, whatever becomes of the candidate. -/
theorem policiesAgree_of_settles {candidate : Candidate} {first all : InterfaceResult}
    (firstSettles : Settles (candidate.decision parse (withPolicy settings .first) tree root) first)
    (allSettles : Settles (candidate.decision parse (withPolicy settings .all) tree root) all) :
    PoliciesAgree parse settings tree root candidate first all := by
  have firstCases := settles_inspect firstSettles
  have allCases := settles_inspect allSettles
  rw [inspect_withPolicy] at firstCases allCases
  cases inspected : inspect parse settings tree root candidate.interface.name with
  | error fault =>
    simp only [inspected, Except.error.injEq, reduceCtorEq, false_and, exists_false, or_false]
      at firstCases allCases
    obtain ⟨firstFault, rfl, rfl⟩ := firstCases
    obtain ⟨allFault, same, rfl⟩ := allCases
    obtain rfl := ReadFault.structural.inj same
    have errors := Candidate.errors_of_error inspected
    refine ⟨rfl, rfl, rfl, rfl, errors.symm, ?_⟩
    rw [errors]
    rfl
  | ok found =>
    obtain ⟨texts, evidence⟩ := found
    simp only [inspected, reduceCtorEq, false_and, exists_false, false_or, Except.ok.injEq,
      Prod.mk.injEq] at firstCases allCases
    obtain ⟨_, _, ⟨rfl, rfl⟩, rfl⟩ := firstCases
    obtain ⟨_, _, ⟨rfl, rfl⟩, rfl⟩ := allCases
    rw [outcome_withPolicy, outcome_withPolicy]
    exact policiesAgree_of_ok inspected

/-! ### Trees -/

/-- The documents of some results are settled one after the other. -/
def settleDocuments (settings : Settings) (directory : Path) (results : List InterfaceResult)
    (tree : FileTree) : Except FileFault FileTree :=
  results.foldlM (fun tree result => settleDocument settings directory result tree) tree

/-- What decisions leave follows from their results. -/
theorem settleDocuments_of_forEach {decisions : List Decision} {results : List InterfaceResult}
    {after : FileTree}
    (ran : Effect.forEach (settle settings directory) decisions tree = (.ok results, after)) :
    settleDocuments settings directory results tree = .ok after := by
  induction decisions generalizing tree results with
  | nil =>
    obtain ⟨same, rfl⟩ := Prod.mk.inj ran
    obtain rfl := Except.ok.inj same
    rfl
  | cons decision decisions inductionHypothesis =>
    obtain ⟨result, middle, rest, first, others, rfl⟩ := Effect.forEach_cons_eq_ok.mp ran
    obtain ⟨events, rfl⟩ := settles_of_settle first
    obtain ⟨-, settled⟩ := settle_eq_ok.mp first
    rw [settleDocuments, List.foldlM_cons, settled]
    exact inductionHypothesis others

/-- Two results concern the same interface and have the same document. -/
def SameDocument (first second : InterfaceResult) : Prop :=
  first.interface = second.interface ∧ first.document? = second.document?

/-- The same documents settle the same tree. -/
theorem settleDocuments_congr {first second : List InterfaceResult}
    (same : List.Forall₂ SameDocument first second) (settings : Settings) (directory : Path)
    (tree : FileTree) :
    settleDocuments settings directory first tree =
      settleDocuments settings directory second tree := by
  induction same generalizing tree with
  | nil => rfl
  | @cons firstResult secondResult _ _ sameResult _ inductionHypothesis =>
    have settled : settleDocument settings directory firstResult tree =
        settleDocument settings directory secondResult tree := by
      unfold settleDocument
      rw [sameResult.1, sameResult.2]
    simp only [settleDocuments, List.foldlM_cons, settled]
    exact bind_congr inductionHypothesis

/-! ### Runs -/

/-- The answer at a position answers the item at that position. -/
theorem forall₂_getElem? {Item Answer : Type} {Answers : Item → Answer → Prop}
    {items : List Item} {answers : List Answer} (all : List.Forall₂ Answers items answers)
    {position : Nat} {item : Item} {answer : Answer} (atItem : items[position]? = some item)
    (atAnswer : answers[position]? = some answer) : Answers item answer := by
  obtain ⟨itemBound, rfl⟩ := List.getElem?_eq_some_iff.mp atItem
  obtain ⟨answerBound, rfl⟩ := List.getElem?_eq_some_iff.mp atAnswer
  exact all.get itemBound answerBound

/-- The policies for missing symbols agree: two runs that go through under them skip the same
interfaces, give results that agree at each position and leave the same tree. -/
theorem generate_policies_agree {state : RunState} {first all : Report}
    (firstRan : ((generateWith parse (withPolicy settings .first) root).run state).1 = .ok first)
    (allRan : ((generateWith parse (withPolicy settings .all) root).run state).1 = .ok all) :
    first.skipped = all.skipped ∧
      (∃ document, readIdl state.tree (idlPath settings root) = .ok document ∧
        first.results.length = (candidates document).length ∧
        all.results.length = (candidates document).length ∧
        ∀ (position : Nat) (candidate : Candidate) (firstResult allResult : InterfaceResult),
          (candidates document)[position]? = some candidate →
          first.results[position]? = some firstResult →
          all.results[position]? = some allResult →
          PoliciesAgree parse settings state.tree root candidate firstResult allResult) ∧
      ((generateWith parse (withPolicy settings .first) root).run state).2.tree =
        ((generateWith parse (withPolicy settings .all) root).run state).2.tree := by
  have firstEffect := HasEffect.generateWith parse (withPolicy settings .first) root state
  have allEffect := HasEffect.generateWith parse (withPolicy settings .all) root state
  rw [firstRan] at firstEffect
  rw [allRan] at allEffect
  obtain ⟨document, read, firstSettled⟩ := plan_of_generated firstEffect.symm
  obtain ⟨other, otherRead, allSettled⟩ := plan_of_generated allEffect.symm
  obtain rfl : document = other := Except.ok.inj (read.symm.trans otherRead)
  have firstSettles := settles_of_plan firstSettled
  have allSettles := settles_of_plan allSettled
  refine ⟨?_, ⟨document, read, firstSettles.length_eq.symm, allSettles.length_eq.symm, ?_⟩, ?_⟩
  · rw [skipped_of_settle firstSettled, skipped_of_settle allSettled]
    rfl
  · intro position candidate firstResult allResult atCandidate atFirst atAll
    exact policiesAgree_of_settles (forall₂_getElem? firstSettles atCandidate atFirst)
      (forall₂_getElem? allSettles atCandidate atAll)
  · have sameDocuments : List.Forall₂ SameDocument first.results all.results := by
      refine forall₂_of_common firstSettles allSettles fun _ _ _ firstSettles allSettles => ?_
      have agree := policiesAgree_of_settles firstSettles allSettles
      exact ⟨agree.interface, agree.document⟩
    obtain ⟨made, firstResults, firstLeft, output, firstAll, firstTypes, rfl⟩ :=
      Plan.settle_eq_ok.mp firstSettled
    obtain ⟨otherMade, allResults, allLeft, otherOutput, allAll, allTypes, rfl⟩ :=
      Plan.settle_eq_ok.mp allSettled
    obtain rfl : made = otherMade :=
      (Prod.mk.inj (output.symm.trans otherOutput)).2
    have firstDocuments := settleDocuments_of_forEach firstAll
    have allDocuments := settleDocuments_of_forEach allAll
    have sameSettled :=
      settleDocuments_congr sameDocuments settings (outputDirectory settings root) made
    have sameLeft : firstLeft = allLeft :=
      Except.ok.inj (firstDocuments.symm.trans (sameSettled.trans allDocuments))
    rw [sameLeft] at firstTypes
    exact Except.ok.inj (firstTypes.symm.trans allTypes)

/-- Two attributes of the only interface of this project have no getters. -/
def withoutGetters : RunState where
  tree :=
    { entries :=
        [(["spec"], .directory), (["spec", "context"], .directory), (["src"], .directory),
          (["lib"], .directory),
          (["spec", "context", "_webcodecs.idl"], .file (Text.encodeUtf8
            "interface A \x7b attribute long a; undefined run(); attribute long b; \x7d;".toList)),
          (["src", "A.h"],
            .file (Text.encodeUtf8 "class A \x7b\n  void Run(int x);\n\x7d;\n".toList)),
          (["src", "A.cpp"], .file (Text.encodeUtf8 "void A::Run(int x) \x7b\n\x7d\n".toList)),
          (["lib", "A.ts"],
            .file (Text.encodeUtf8 "class A \x7b\n  run() \x7b\x7d\n\x7d\n".toList))] }
  events := []

/-- One getter is missing under the first policy and two are under the other; the trees agree. -/
theorem generate_policies_agree_withoutGetters :
    ((generate (withPolicy {} .first) (.ofString "/")).run withoutGetters).1.map
        (fun report => report.results.map (·.missingSymbols.length)) = .ok [1] ∧
      ((generate (withPolicy {} .all) (.ofString "/")).run withoutGetters).1.map
        (fun report => report.results.map (·.missingSymbols.length)) = .ok [2] ∧
      ((generate (withPolicy {} .first) (.ofString "/")).run withoutGetters).2.tree =
        ((generate (withPolicy {} .all) (.ofString "/")).run withoutGetters).2.tree := by
  have firstViewed : ((generate (withPolicy {} .first) (.ofString "/")).run withoutGetters).1.map
      (fun report => report.results.map (·.missingSymbols.length)) = .ok [1] := by
    decide +kernel
  have allViewed : ((generate (withPolicy {} .all) (.ofString "/")).run withoutGetters).1.map
      (fun report => report.results.map (·.missingSymbols.length)) = .ok [2] := by
    decide +kernel
  obtain ⟨first, firstRan, -⟩ := exists_of_map_eq_ok firstViewed
  obtain ⟨all, allRan, -⟩ := exists_of_map_eq_ok allViewed
  exact ⟨firstViewed, allViewed, (generate_policies_agree firstRan allRan).2.2⟩

end InterfaceAudit.Project
