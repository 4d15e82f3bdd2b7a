import InterfaceAudit.Proofs.Project.Isolation
import InterfaceAudit.Proofs.Project.Matching

/-!
What a run leaves.
The places of the interfaces that are not skipped hold the documents of the report, and no other
file changes.
-/

namespace InterfaceAudit.Project

variable {parse : String → Script.Tree} {settings : Settings} {root directory : Path}
  {tree after : FileTree}

/-! ### Results of one interface -/

/-- An interface is written when no symbol is missing. -/
theorem isWritten_outcome (interface : String) (declared : Idl.Interface) (texts : ArtifactTexts)
    (matched : Matches) :
    (InterfaceResult.mk interface (matched.outcome settings declared texts)).isWritten =
      matched.missing.isEmpty := by
  unfold Matches.outcome
  cases matched.missing with
  | nil => rfl
  | cons missing others => rfl

/-- Candidates with the same name and the same subjects are audited alike. -/
theorem isWritten_congr {first second : Candidate} {firstResult secondResult : InterfaceResult}
    (sameName : first.interface.name = second.interface.name)
    (sameSubjects : first.subjects = second.subjects)
    (firstSettles : Settles (first.decision parse settings tree root) firstResult)
    (secondSettles : Settles (second.decision parse settings tree root) secondResult) :
    firstResult.isWritten = secondResult.isWritten := by
  have firstCases := settles_inspect firstSettles
  have secondCases := settles_inspect secondSettles
  rw [sameName, sameSubjects] at firstCases
  cases inspected : inspect parse settings tree root second.interface.name with
  | error fault =>
    simp only [inspected, Except.error.injEq, reduceCtorEq, false_and, exists_false, or_false]
      at firstCases secondCases
    obtain ⟨firstFault, -, rfl⟩ := firstCases
    obtain ⟨secondFault, -, rfl⟩ := secondCases
    rfl
  | ok found =>
    obtain ⟨texts, evidence⟩ := found
    simp only [inspected, reduceCtorEq, false_and, exists_false, false_or, Except.ok.injEq,
      Prod.mk.injEq] at firstCases secondCases
    obtain ⟨_, _, ⟨rfl, rfl⟩, rfl⟩ := firstCases
    obtain ⟨_, _, ⟨rfl, rfl⟩, rfl⟩ := secondCases
    rw [isWritten_outcome, isWritten_outcome]

/-- A candidate is an interface of the document that is not skipped. -/
theorem candidate_eq {document : Idl.Document} {candidate : Candidate}
    (member : candidate ∈ candidates document) :
    candidate.interface ∈ document.interfaces ∧
      candidate.subjects = document.subjectsOf candidate.interface.name ∧
      candidate.interface.name ∉ skippedNames document := by
  obtain ⟨chosen, notEmpty⟩ := List.mem_filter.mp member
  obtain ⟨interface, declared, rfl⟩ := List.mem_map.mp chosen
  refine ⟨declared, rfl, fun skipped => ?_⟩
  obtain ⟨other, otherSkipped, sameName⟩ := List.mem_map.mp skipped
  have empty := (List.mem_filter.mp otherSkipped).2
  rw [sameName] at empty
  rw [empty] at notEmpty
  contradiction

/-- The candidate of a result. -/
theorem candidate_of_result {document : Idl.Document} {report : Report} {result : InterfaceResult}
    (ran : (planFor parse settings root tree document).settle settings tree = (.ok report, after))
    (member : result ∈ report.results) :
    ∃ candidate ∈ candidates document, candidate.interface.name = result.interface ∧
      Settles (candidate.decision parse settings tree root) result := by
  obtain ⟨candidate, candidateMember, settles⟩ :=
    exists_of_forall₂ (settles_of_plan ran).flip member
  exact ⟨candidate, candidateMember, (contained_of_settles settles).interface.symm, settles⟩

/-- All results of an interface have a document, or none has. -/
theorem isWritten_of_sameInterface {document : Idl.Document} {report : Report}
    {first second : InterfaceResult}
    (ran : (planFor parse settings root tree document).settle settings tree = (.ok report, after))
    (firstMember : first ∈ report.results) (secondMember : second ∈ report.results)
    (same : first.interface = second.interface) : first.isWritten = second.isWritten := by
  obtain ⟨firstCandidate, firstChosen, firstName, firstSettles⟩ :=
    candidate_of_result ran firstMember
  obtain ⟨secondCandidate, secondChosen, secondName, secondSettles⟩ :=
    candidate_of_result ran secondMember
  have sameName : firstCandidate.interface.name = secondCandidate.interface.name := by
    rw [firstName, same, secondName]
  refine isWritten_congr sameName ?_ firstSettles secondSettles
  rw [(candidate_eq firstChosen).2.1, (candidate_eq secondChosen).2.1, sameName]

/-- The last document that a report has for an interface. -/
def Report.lastDocument? (report : Report) (interface : String) :
    Option Audit.InterfaceDocument :=
  ((report.results.filter (·.interface = interface)).filterMap
    InterfaceResult.document?).getLast?

/-- Several results of one interface leave the last document. -/
theorem heldAfter_eq_last {results : List InterfaceResult}
    (alike : ∀ first ∈ results, ∀ second ∈ results, first.isWritten = second.isWritten) :
    heldAfter settings none results =
      (results.filterMap InterfaceResult.document?).getLast?.map fun document =>
        .file (documentBytes settings document.json) := by
  rcases List.eq_nil_or_concat' results with rfl | ⟨front, last, rfl⟩
  · rfl
  · have held : heldAfter settings none (front ++ [last]) = last.entry? settings := by
      simp only [heldAfter, List.foldl_append, List.foldl_cons, List.foldl_nil]
    rw [held, InterfaceResult.entry?, List.filterMap_append]
    cases found : last.document? with
    | some document => simp [found]
    | none =>
      have unwritten : front.filterMap InterfaceResult.document? = [] := by
        refine List.filterMap_eq_nil_iff.mpr fun result member => ?_
        have same := alike result (List.mem_append_left _ member) last (by simp)
        simpa [InterfaceResult.isWritten, found] using same
      simp [unwritten, found]

/-! ### Other places -/

/-- Making the output directory changes nothing that is there. -/
theorem makeOutput_grows (made : Effect.makeOutput directory tree = (.ok (), after)) :
    tree.Grows after := by
  unfold Effect.makeOutput at made
  split at made
  · next ensured =>
    obtain rfl := (Prod.mk.inj made).2
    exact FileTree.makeDirectories_grows ensured
  · exact absurd (Prod.mk.inj made).1 nofun

/-- A place that belongs to no result is as before. -/
theorem forEach_elsewhere {base location : Location} {decisions : List Decision}
    {results : List InterfaceResult} (stands : StandsAt tree directory base)
    (isName : ∀ result ∈ results, Idl.IsName result.interface)
    (ran : Effect.forEach (settle settings directory) decisions tree = (.ok results, after))
    (apart : ∀ result ∈ results, location ≠ documentPlace base result.interface) :
    after.get? location = tree.get? location := by
  induction decisions generalizing tree results with
  | nil =>
    obtain ⟨-, rfl⟩ := Prod.mk.inj ran
    rfl
  | cons decision decisions inductionHypothesis =>
    obtain ⟨result, middle, rest, first, others, rfl⟩ := Effect.forEach_cons_eq_ok.mp ran
    obtain ⟨events, rfl⟩ := settles_of_settle first
    obtain ⟨resultIsName, restIsName⟩ := List.forall_mem_cons.mp isName
    obtain ⟨resultApart, restApart⟩ := List.forall_mem_cons.mp apart
    have changes := settle_changes stands resultIsName first
    have later := inductionHypothesis (stands.congr changes.sameDirectories) restIsName others
      restApart
    exact later.trans (changes.elsewhere location resultApart)

/-- A plan that is carried out leaves the documents of its report at the place of the output
directory, and changes nothing else but for new directories. -/
theorem leaves_of_settle {plan : Plan} {report : Report}
    (ran : plan.settle settings tree = (.ok report, after))
    (isName : ∀ result ∈ report.results, Idl.IsName result.interface) :
    ∃ base, StandsAt after plan.outputDirectory base ∧
      after.get? (documentPlace base "types") =
        some (.file (documentBytes settings plan.types.json)) ∧
      ∀ location, location ≠ documentPlace base "types" →
        (∀ result ∈ report.results, location ≠ documentPlace base result.interface) →
        tree.KeepsAt after location := by
  obtain ⟨made, results, left, output, settled, typesWritten, rfl⟩ := Plan.settle_eq_ok.mp ran
  obtain ⟨base, stands⟩ := standsAt_of_makeOutput output
  obtain ⟨standsLeft, -⟩ := forEach_entry stands isName settled "types"
  rw [typesPath_eq] at typesWritten
  have changes := FileTree.write_changes (standsLeft.resolve isName_types) typesWritten
  refine ⟨base, standsLeft.congr changes.sameDirectories, changes.here, ?_⟩
  intro location notTypes apart
  rw [FileTree.KeepsAt, changes.elsewhere location notTypes,
    forEach_elsewhere stands isName settled apart]
  exact makeOutput_grows output location

/-! ### Runs -/

/-- A run that goes through leaves at the place of an interface that is not skipped the last
document of its report for this interface, or nothing if there is none, and the types at their own
place. Every other place is as before, that of a skipped interface included. -/
theorem generate_leaves {state : RunState} {report : Report}
    (ran : ((generateWith parse settings root).run state).1 = .ok report) :
    let left := ((generateWith parse settings root).run state).2.tree
    let output := outputDirectory settings root
    ∃ document base, readIdl state.tree (idlPath settings root) = .ok document ∧
      StandsAt left output base ∧
      (∀ interface ∈ document.interfaces, interface.name ≠ "types" →
        if interface.name ∈ report.skipped then
          state.tree.KeepsAt left (documentPlace base interface.name)
        else
          left.entry? (documentPath output interface.name) =
            (report.lastDocument? interface.name).map fun document =>
              .file (documentBytes settings document.json)) ∧
      left.entry? (typesPath output) = some (.file (documentBytes settings report.types.json)) ∧
      ∀ location, location ≠ documentPlace base "types" →
        (∀ interface ∈ document.interfaces, location ≠ documentPlace base interface.name) →
        state.tree.KeepsAt left location := by
  intro left output
  have effect := HasEffect.generateWith parse settings root state
  rw [ran] at effect
  obtain ⟨document, read, settled⟩ := plan_of_generated effect.symm
  have isName := isName_of_results read settled
  have skipped : report.skipped = skippedNames document := skipped_of_settle settled
  have types : report.types = (planFor parse settings root state.tree document).types := by
    obtain ⟨_, _, _, -, -, -, rfl⟩ := Plan.settle_eq_ok.mp settled
    rfl
  obtain ⟨base, stands, typesHere, elsewhere⟩ := leaves_of_settle settled isName
  refine ⟨document, base, read, stands, ?_, ?_, ?_⟩
  · intro interface declared notTypes
    split
    · next isSkipped =>
      refine elsewhere _ (fun same => notTypes (documentPlace_injective same)) ?_
      intro result member same
      obtain ⟨candidate, chosen, sameName, -⟩ := candidate_of_result settled member
      rw [← documentPlace_injective same] at sameName
      rw [skipped, ← sameName] at isSkipped
      exact (candidate_eq chosen).2.2 isSkipped
    · next notSkipped =>
      obtain ⟨text, parsed⟩ := parse_of_readIdl read
      rw [skipped] at notSkipped
      refine (entry_of_settle settled isName (Idl.isName_of_parse parsed declared) notTypes
        (results_ne_nil settled declared notSkipped)).trans (heldAfter_eq_last ?_)
      intro first firstMember second secondMember
      obtain ⟨firstMember, firstName⟩ := List.mem_filter.mp firstMember
      obtain ⟨secondMember, secondName⟩ := List.mem_filter.mp secondMember
      refine isWritten_of_sameInterface settled firstMember secondMember ?_
      rw [of_decide_eq_true firstName, of_decide_eq_true secondName]
  · rw [types]
    exact (stands.entry?_documentPath isName_types).trans typesHere
  · intro location notTypes apart
    refine elsewhere location notTypes fun result member => ?_
    obtain ⟨candidate, chosen, sameName, -⟩ := candidate_of_result settled member
    rw [← sameName]
    exact apart candidate.interface (candidate_eq chosen).1

/-- An interface of this project has lost its members, and its document is still there. -/
def staleDocument : RunState where
  tree :=
    { entries :=
        [(["spec"], .directory), (["spec", "context"], .directory), (["docs"], .directory),
          (["docs", "tasks"], .directory),
          (["spec", "context", "_webcodecs.idl"],
            .file (Text.encodeUtf8 "interface A \x7b \x7d;".toList)),
          (["docs", "tasks", "A.json"], .file (Text.encodeUtf8 "stale".toList))] }
  events := []

/-- The run skips the interface and leaves its document as it is. -/
theorem generate_leaves_staleDocument :
    ((generate {} (.ofString "/")).run staleDocument).1.map Report.skipped = .ok ["A"] ∧
      ((generate {} (.ofString "/")).run staleDocument).2.tree.get? ["docs", "tasks", "A.json"] =
        some (.file (Text.encodeUtf8 "stale".toList)) := by
  have viewed : ((generate {} (.ofString "/")).run staleDocument).1.map Report.skipped =
      .ok ["A"] := by
    decide +kernel
  refine ⟨viewed, ?_⟩
  obtain ⟨report, ran, skipped⟩ := exists_of_map_eq_ok viewed
  obtain ⟨document, base, read, stands, documents, -⟩ := generate_leaves ran
  have sameDocument : readIdl staleDocument.tree (idlPath {} (.ofString "/")) =
      .ok ⟨[.interface { name := "A", span := some ⟨1, 1⟩ }]⟩ := by
    decide +kernel
  obtain rfl := Except.ok.inj (read.symm.trans sameDocument)
  have samePlace : ((generate {} (.ofString "/")).run staleDocument).2.tree.resolve
      (outputDirectory {} (.ofString "/")) = .ok ["docs", "tasks"] := by
    decide +kernel
  obtain rfl := Except.ok.inj (stands.1.symm.trans samePlace)
  have kept := documents { name := "A", span := some ⟨1, 1⟩ } (by decide +kernel) (by decide)
  rw [if_pos (by rw [skipped]; decide)] at kept
  rcases kept with same | ⟨missing, -⟩
  · exact same
  · exact absurd missing (by decide +kernel)

end InterfaceAudit.Project
