import InterfaceAudit.CommandLine
import InterfaceAudit.Proofs.Project.Features
import InterfaceAudit.Proofs.Project.Output
import Mathlib.Algebra.GroupWithZero.Nat

/-!
Accounting of a run.
Every primary interface is skipped or has a result, every result has its reason, and the exit code
tells whether all of them have documents.
-/

namespace InterfaceAudit.Project

variable {parse : String → Script.Tree} {settings : Settings} {root : Path}
  {tree after : FileTree}

/-! ### Results and their reasons -/

/-- A result has a document when its interface was audited. -/
theorem InterfaceResult.document?_eq_some {result : InterfaceResult}
    {audit : Audit.InterfaceDocument} :
    result.document? = some audit ↔ result.outcome = .audited audit := by
  unfold document?
  cases result.outcome <;> simp

/-- A result has a document or a fault or some missing symbols, and no two of them. -/
def InterfaceResult.HasOneReason (result : InterfaceResult) : Prop :=
  [result.document?.isSome, result.fault?.isSome, !result.missingSymbols.isEmpty].count true = 1

/-- What a result of a candidate accounts for. -/
structure Reasoned (candidate : Candidate) (result : InterfaceResult) : Prop where
  interface : result.interface = candidate.interface.name
  reason : result.HasOneReason
  features : ∀ audit, result.document? = some audit →
    audit.features.length = candidate.subjects.length

/-- Each decision gives its result exactly one reason. -/
theorem reasoned_of_settles {candidate : Candidate} {result : InterfaceResult}
    (settles : Settles (candidate.decision parse settings tree root) result) :
    Reasoned candidate result := by
  rcases settles_inspect settles with ⟨fault, -, rfl⟩ | ⟨texts, evidence, -, rfl⟩
  · exact ⟨rfl, rfl, nofun⟩
  · refine ⟨rfl, ?_, ?_⟩
    · unfold InterfaceResult.HasOneReason Matches.outcome
      cases (evidence.matchSubjects settings.generation.policy candidate.subjects).missing with
      | nil => rfl
      | cons missing others => rfl
    · intro audit written
      obtain ⟨sound, rfl⟩ :=
        Matches.outcome_eq_audited.mp (InterfaceResult.document?_eq_some.mp written)
      exact (matchSubjects_describes settings.generation.policy sound).length_eq.symm

/-! ### Counting -/

/-- The features of a report are counted over the results with documents. -/
theorem featureCount_eq_sum {report : Report} {count : InterfaceResult → Nat}
    (counts : ∀ result ∈ report.results, ∀ audit, result.document? = some audit →
      audit.features.length = count result) :
    report.featureCount = (report.written.map count).sum := by
  have lengths : ∀ results : List InterfaceResult,
      (∀ result ∈ results, ∀ audit, result.document? = some audit →
        audit.features.length = count result) →
      (results.filterMap InterfaceResult.document?).map (fun audit => audit.features.length) =
        (results.filter InterfaceResult.isWritten).map count := by
    intro results
    induction results with
    | nil => exact fun _ => rfl
    | cons result results inductionHypothesis =>
      intro counts
      obtain ⟨here, later⟩ := List.forall_mem_cons.mp counts
      cases found : result.document? with
      | none =>
        have unwritten : ¬result.isWritten = true := by simp [InterfaceResult.isWritten, found]
        rw [List.filterMap_cons_none found, List.filter_cons_of_neg unwritten]
        exact inductionHypothesis later
      | some audit =>
        have written : result.isWritten = true := by simp [InterfaceResult.isWritten, found]
        rw [List.filterMap_cons_some found, List.filter_cons_of_pos written, List.map_cons,
          List.map_cons, here audit found, inductionHypothesis later]
  unfold Report.featureCount Report.written
  rw [← lengths report.results counts, List.sum_eq_foldl, List.foldl_map]

/-! ### Reports -/

/-- An interface of a document without subjects. -/
def isBare (document : Idl.Document) (interface : Idl.Interface) : Bool :=
  (document.subjectsOf interface.name).isEmpty

/-- A report accounts for the primary interfaces of a document. -/
structure Accounts (document : Idl.Document) (report : Report) : Prop where
  skipped : report.skipped = (document.interfaces.filter (isBare document)).map Idl.Interface.name
  results : report.results.map InterfaceResult.interface =
    (document.interfaces.filter fun interface => !isBare document interface).map
      Idl.Interface.name
  reason : ∀ result ∈ report.results, result.HasOneReason
  output : ∀ result ∈ report.results,
    (result.output? report.outputDirectory).isSome = result.document?.isSome
  split : (report.written ++ report.failures).Perm report.results
  written : ∀ result ∈ report.written, result.document?.isSome
  failed : ∀ result ∈ report.failures, result.document? = none
  featureCount : report.featureCount =
    (report.written.map fun result => (document.subjectsOf result.interface).length).sum

/-- The candidates are the interfaces with members that have code. -/
theorem candidates_interfaces (document : Idl.Document) :
    (candidates document).map (fun candidate => candidate.interface.name) =
      (document.interfaces.filter fun interface => !isBare document interface).map
        Idl.Interface.name := by
  unfold candidates isBare
  rw [List.filter_map, List.map_map]
  rfl

/-- A plan that is carried out accounts for every interface. -/
theorem accounts_of_settle {document : Idl.Document} {report : Report}
    (ran : (planFor parse settings root tree document).settle settings tree = (.ok report, after)) :
    Accounts document report := by
  have reasoned (result : InterfaceResult) (member : result ∈ report.results) :
      ∃ candidate ∈ candidates document, Reasoned candidate result := by
    obtain ⟨candidate, chosen, -, settles⟩ := candidate_of_result ran member
    exact ⟨candidate, chosen, reasoned_of_settles settles⟩
  refine ⟨skipped_of_settle ran, ?_, ?_, ?_, ?_, ?_, ?_, ?_⟩
  · exact (interfaces_of_plan ran).trans (candidates_interfaces document)
  · intro result member
    obtain ⟨candidate, -, reason⟩ := reasoned result member
    exact reason.reason
  · exact fun result _ => Option.isSome_map
  · exact List.filter_append_perm InterfaceResult.isWritten report.results
  · exact fun result member => (List.mem_filter.mp member).2
  · intro result member
    simpa [InterfaceResult.isWritten] using (List.mem_filter.mp member).2
  · apply featureCount_eq_sum
    intro result member audit written
    obtain ⟨candidate, chosen, reason⟩ := reasoned result member
    rw [reason.features audit written, (candidate_eq chosen).2.1, reason.interface]

/-- Every interface that is not skipped is among the written ones. -/
def AllWritten (document : Idl.Document) (report : Report) : Prop :=
  ∀ interface ∈ document.interfaces, interface.name ∉ report.skipped →
    interface.name ∈ report.written.map InterfaceResult.interface

/-- Without failures all interfaces that are not skipped are written, and the other way around. -/
theorem failures_eq_nil_iff {document : Idl.Document} {report : Report}
    (ran : (planFor parse settings root tree document).settle settings tree = (.ok report, after)) :
    report.failures = [] ↔ AllWritten document report := by
  have skipped : report.skipped = skippedNames document := skipped_of_settle ran
  constructor
  · intro sound interface declared notSkipped
    rw [skipped] at notSkipped
    obtain ⟨result, member⟩ :=
      List.exists_mem_of_ne_nil _ (results_ne_nil ran declared notSkipped)
    obtain ⟨member, name⟩ := List.mem_filter.mp member
    have written : result ∈ report.written ++ report.failures :=
      (accounts_of_settle ran).split.mem_iff.mpr member
    rw [sound, List.append_nil] at written
    exact List.mem_map.mpr ⟨result, written, of_decide_eq_true name⟩
  · intro allWritten
    by_contra some
    obtain ⟨failure, failed⟩ := List.exists_mem_of_ne_nil _ some
    obtain ⟨member, unwritten⟩ := List.mem_filter.mp failed
    obtain ⟨candidate, chosen, name, -⟩ := candidate_of_result ran member
    obtain ⟨declared, -, notSkipped⟩ := candidate_eq chosen
    rw [← skipped] at notSkipped
    -- A repeated interface has a result for each of its declarations, and they are written alike.
    obtain ⟨other, written, otherName⟩ :=
      List.mem_map.mp (allWritten candidate.interface declared notSkipped)
    obtain ⟨otherMember, otherWritten⟩ := List.mem_filter.mp written
    have alike := isWritten_of_sameInterface ran otherMember member (otherName.trans name)
    rw [← alike, otherWritten] at unwritten
    contradiction

/-- What happened before a run does not matter for its answer. -/
theorem answer_congr {first second : RunState} (same : first.tree = second.tree) :
    ((generateWith parse settings root).run first).1 =
      ((generateWith parse settings root).run second).1 := by
  have firstEffect := HasEffect.generateWith parse settings root first
  rw [same, ← HasEffect.generateWith parse settings root second] at firstEffect
  exact (Prod.mk.inj firstEffect).1

end InterfaceAudit.Project

/-! ### The command line -/

namespace InterfaceAudit.CommandLine

open Project

variable {parse : String → Script.Tree} {settings : Settings} {root : Path}

/-- A call of the program comes to a run with some settings in a project. -/
def Surroundings.Calls (surroundings : Surroundings) (settings : Settings) (root : Path) : Prop :=
  ∃ configured threshold request,
    surroundings.configure = .ok (configured, threshold) ∧
    Arguments.ofStrings surroundings.arguments = .run request ∧
    surroundings.tree.isDirectory
      (surroundings.directory.join (request.root.getD surroundings.directory)) ∧
    request.adjust configured = settings ∧
    surroundings.projectRoot (request.root.getD surroundings.directory) = root

/-- A run that gives a report ends the call by its failures. -/
theorem Surroundings.Calls.ending {surroundings : Surroundings} {report : Report}
    (calls : surroundings.Calls settings root)
    (ran : ((generateWith parse settings root).run ⟨surroundings.tree, []⟩).1 = .ok report)
    (elapsed : String) :
    (surroundings.runWith parse elapsed).ending =
      .exit (if report.failures.isEmpty then 0 else 1) := by
  obtain ⟨configured, threshold, request, configures, understood, isDirectory, rfl, rfl⟩ := calls
  unfold runWith
  rw [configures, understood]
  dsimp only
  rw [if_pos isDirectory]
  unfold runOn
  cases result : (generateWith parse (request.adjust configured)
      (surroundings.projectRoot (request.root.getD surroundings.directory))).run
      ⟨surroundings.tree, []⟩ with
  | mk answer state =>
    rw [result] at ran
    obtain rfl : answer = .ok report := ran
    rfl

/-- A run that gives a report accounts for the primary interfaces of its document, and a call of
the program that comes to it ends with zero or one, as all interfaces that are not skipped are
written or not. -/
theorem generate_accounts {state : RunState} {report : Report}
    (ran : ((generateWith parse settings root).run state).1 = .ok report) :
    ∃ document, readIdl state.tree (idlPath settings root) = .ok document ∧
      Accounts document report ∧
      ∀ (surroundings : Surroundings) (elapsed : String), surroundings.tree = state.tree →
        surroundings.Calls settings root →
          (AllWritten document report →
            (surroundings.runWith parse elapsed).ending = .exit 0) ∧
          (¬AllWritten document report →
            (surroundings.runWith parse elapsed).ending = .exit 1) := by
  have effect := HasEffect.generateWith parse settings root state
  rw [ran] at effect
  obtain ⟨document, read, settled⟩ := plan_of_generated effect.symm
  refine ⟨document, read, accounts_of_settle settled, ?_⟩
  intro surroundings elapsed sameTree calls
  have answer : ((generateWith parse settings root).run ⟨surroundings.tree, []⟩).1 = .ok report :=
    (answer_congr sameTree).trans ran
  have ending := calls.ending answer elapsed
  constructor
  · intro allWritten
    rw [ending, (failures_eq_nil_iff settled).mpr allWritten]
    rfl
  · intro notAll
    have some : report.failures ≠ [] := fun none => notAll ((failures_eq_nil_iff settled).mp none)
    rw [ending, if_neg (List.isEmpty_iff.not.mpr some)]

/-- The program is called in the root directory of a project, without arguments. -/
def calledAtRoot (tree : FileTree) : Surroundings := ⟨[], ⟨[]⟩, .ofString "/", tree⟩

/-- One interface is written and the header of the other one is missing, so the call ends with
one. -/
theorem generate_accounts_besideMissing :
    ((calledAtRoot besideMissing.tree).run "0.000").ending = .exit 1 := by
  have viewed : ((generate {} (.ofString "/")).run besideMissing).1.map
      (fun report => (report.skipped, report.written.map InterfaceResult.interface)) =
        .ok ([], ["A"]) := by
    decide +kernel
  obtain ⟨report, ran, shown⟩ := exists_of_map_eq_ok viewed
  obtain ⟨skipped, written⟩ := Prod.mk.inj shown
  obtain ⟨document, read, -, ends⟩ := generate_accounts ran
  have sameDocument : readIdl besideMissing.tree (idlPath {} (.ofString "/")) =
      .ok ⟨[.interface runnable, .interface neighbour]⟩ := by
    decide +kernel
  obtain rfl := Except.ok.inj (read.symm.trans sameDocument)
  have calls : (calledAtRoot besideMissing.tree).Calls {} (.ofString "/") :=
    ⟨{}, 20, {}, rfl, rfl, by decide +kernel, rfl, by decide +kernel⟩
  refine (ends _ "0.000" rfl calls).2 fun allWritten => ?_
  have missing := allWritten neighbour (by decide +kernel)
  rw [skipped, written] at missing
  exact absurd (missing (by decide)) (by decide)

end InterfaceAudit.CommandLine
