import InterfaceAudit.Proofs.Project.Stored

/-!
Isolation of interfaces.
What becomes of an interface depends on the interface definition file and on its own artifacts.
-/

namespace InterfaceAudit.Project

variable {First Second Item : Type} {parse : String → Script.Tree} {settings : Settings}
  {root : Path} {tree after : FileTree}

/-! ### Runs that go through -/

/-- A run that goes through has carried out the plan for a document. -/
theorem plan_of_generated {report : Report}
    (ran : generated parse settings root tree = (.ok report, after)) :
    ∃ document, readIdl tree (idlPath settings root) = .ok document ∧
      (planFor parse settings root tree document).settle settings tree = (.ok report, after) := by
  unfold generated at ran
  rw [plan_eq] at ran
  cases read : readIdl tree (idlPath settings root) with
  | error fault =>
    rw [read] at ran
    exact absurd (Prod.mk.inj ran).1 nofun
  | ok document =>
    rw [read] at ran
    exact ⟨document, rfl, ran⟩

/-- The skipped interfaces of a report are those of its plan. -/
theorem skipped_of_settle {plan : Plan} {report : Report}
    (ran : plan.settle settings tree = (.ok report, after)) : report.skipped = plan.skipped := by
  obtain ⟨made, results, left, -, -, -, rfl⟩ := Plan.settle_eq_ok.mp ran
  rfl

/-- A document is parsed from the text of its file. -/
theorem parse_of_readIdl {path : Path} {document : Idl.Document}
    (read : readIdl tree path = .ok document) :
    ∃ text, Idl.Document.parse text = .ok document := by
  unfold readIdl at read
  split at read
  · contradiction
  · split at read
    · contradiction
    · next text _ =>
      cases parsed : Idl.Document.parse text with
      | error error =>
        rw [parsed] at read
        contradiction
      | ok other =>
        rw [parsed] at read
        obtain rfl := Except.ok.inj read
        exact ⟨text, parsed⟩

/-- A candidate of a document has a name token as its name. -/
theorem isName_of_candidate {path : Path} {document : Idl.Document} {candidate : Candidate}
    (read : readIdl tree path = .ok document) (member : candidate ∈ candidates document) :
    Idl.IsName candidate.interface.name := by
  obtain ⟨text, parsed⟩ := parse_of_readIdl read
  obtain ⟨interface, declared, rfl⟩ := List.mem_map.mp (List.mem_filter.mp member).1
  exact Idl.isName_of_parse parsed declared

/-! ### Answers to the same items -/

/-- An item has one of the answers. -/
theorem exists_of_forall₂ {Answers : Item → Second → Prop} {items : List Item}
    {answers : List Second} (all : List.Forall₂ Answers items answers) {item : Item}
    (member : item ∈ items) : ∃ answer ∈ answers, Answers item answer := by
  induction all with
  | nil => exact absurd member List.not_mem_nil
  | cons answered _ inductionHypothesis =>
    rcases List.mem_cons.mp member with rfl | later
    · exact ⟨_, List.mem_cons_self .., answered⟩
    · obtain ⟨answer, answerMember, answered⟩ := inductionHypothesis later
      exact ⟨answer, List.mem_cons_of_mem _ answerMember, answered⟩

/-- Two lists of answers to the same items are related when the two answers to each item are. -/
theorem forall₂_of_common {FirstAnswers : Item → First → Prop}
    {SecondAnswers : Item → Second → Prop} {Same : First → Second → Prop} {items : List Item}
    {firsts : List First} {seconds : List Second}
    (firstAnswers : List.Forall₂ FirstAnswers items firsts)
    (secondAnswers : List.Forall₂ SecondAnswers items seconds)
    (same : ∀ item first second, FirstAnswers item first → SecondAnswers item second →
      Same first second) : List.Forall₂ Same firsts seconds := by
  induction firstAnswers generalizing seconds with
  | nil =>
    obtain rfl := List.forall₂_nil_left_iff.mp secondAnswers
    exact .nil
  | cons answer _ inductionHypothesis =>
    obtain ⟨second, others, otherAnswer, otherAnswers, rfl⟩ :=
      List.forall₂_cons_left_iff.mp secondAnswers
    exact .cons (same _ _ _ answer otherAnswer) (inductionHypothesis otherAnswers)

/-- Two lists have the same answers of a kind when they have them at each position. -/
theorem filter_eq_of_forall₂ {keeps : Second → Bool} {firsts seconds : List Second}
    (same : List.Forall₂ (fun first second => [first].filter keeps = [second].filter keeps)
      firsts seconds) :
    firsts.filter keeps = seconds.filter keeps := by
  induction same with
  | nil => rfl
  | @cons first second _ _ same _ inductionHypothesis =>
    rw [← List.singleton_append, List.filter_append, ← List.singleton_append (x := second),
      List.filter_append, same, inductionHypothesis]

/-! ### Two runs -/

/-- Trees agree on an interface when they agree on its five artifacts. -/
def AgreeOn (settings : Settings) (root : Path) (interface : String) (first second : FileTree) :
    Prop :=
  ∀ artifact ∈ ((Layout.ofInterface settings.paths interface).within root).artifacts,
    first.content? artifact.path = second.content? artifact.path

/-- Equal contents of the interface definition file read the same. -/
theorem readIdl_congr {first second : FileTree} {path : Path}
    (same : first.content? path = second.content? path) :
    readIdl first path = readIdl second path := by
  unfold readIdl
  rw [same]

/-- Two runs give the same results for an interface on whose artifacts their trees agree. -/
theorem results_congr {first second firstAfter secondAfter : FileTree} {document : Idl.Document}
    {name : String} {firstReport secondReport : Report}
    (agree : AgreeOn settings root name first second)
    (firstRan : (planFor parse settings root first document).settle settings first =
      (.ok firstReport, firstAfter))
    (secondRan : (planFor parse settings root second document).settle settings second =
      (.ok secondReport, secondAfter)) :
    firstReport.results.filter (·.interface = name) =
      secondReport.results.filter (·.interface = name) := by
  refine filter_eq_of_forall₂
    (forall₂_of_common (settles_of_plan firstRan) (settles_of_plan secondRan) ?_)
  intro candidate firstResult secondResult firstSettles secondSettles
  have firstName := (contained_of_settles firstSettles).interface
  have secondName := (contained_of_settles secondSettles).interface
  by_cases here : candidate.interface.name = name
  · subst here
    obtain ⟨firstEvents, firstDecided⟩ := firstSettles
    obtain ⟨secondEvents, secondDecided⟩ := secondSettles
    have decisions := firstDecided.symm.trans ((decision_congr candidate agree).trans secondDecided)
    rw [(Decision.decided.inj decisions).1]
  · have firstElsewhere : ¬firstResult.interface = name := firstName ▸ here
    have secondElsewhere : ¬secondResult.interface = name := secondName ▸ here
    rw [List.filter_cons_of_neg (by simpa using firstElsewhere),
      List.filter_cons_of_neg (by simpa using secondElsewhere)]

/-- An interface that is not skipped has a result. -/
theorem results_ne_nil {document : Idl.Document} {report : Report} {interface : Idl.Interface}
    (ran : (planFor parse settings root tree document).settle settings tree = (.ok report, after))
    (declared : interface ∈ document.interfaces)
    (notSkipped : interface.name ∉ skippedNames document) :
    report.results.filter (·.interface = interface.name) ≠ [] := by
  let candidate : Candidate := ⟨interface, document.subjectsOf interface.name⟩
  have subjects : (document.subjectsOf interface.name).isEmpty = false := by
    refine eq_false_of_ne_true fun empty => notSkipped ?_
    exact List.mem_map.mpr ⟨interface, List.mem_filter.mpr ⟨declared, empty⟩, rfl⟩
  have member : candidate ∈ candidates document := by
    refine List.mem_filter.mpr ⟨List.mem_map.mpr ⟨interface, declared, rfl⟩, ?_⟩
    simp only [candidate, subjects, Bool.not_false]
  obtain ⟨result, resultMember, settles⟩ := exists_of_forall₂ (settles_of_plan ran) member
  have sameName := (contained_of_settles settles).interface
  refine List.ne_nil_of_mem (List.mem_filter.mpr ⟨resultMember, ?_⟩)
  simpa using sameName

/-- Every result is that of an interface with a name token. -/
theorem isName_of_results {path : Path} {document : Idl.Document} {report : Report}
    (read : readIdl tree path = .ok document)
    (ran : (planFor parse settings root tree document).settle settings tree = (.ok report, after)) :
    ∀ result ∈ report.results, Idl.IsName result.interface := by
  intro result member
  obtain ⟨candidate, candidateMember, settles⟩ :=
    exists_of_forall₂ (settles_of_plan ran).flip member
  rw [(contained_of_settles settles).interface]
  exact isName_of_candidate read candidateMember

/-- Interfaces do not interfere: two runs that go through on trees with the same interface
definition file and the same artifacts of an interface skip it alike, give the same results for it
and leave the same document of it. -/
theorem generate_isolates {document : Idl.Document} {interface : Idl.Interface}
    {first second : RunState} {firstReport secondReport : Report}
    (sameIdl : first.tree.content? (idlPath settings root) =
      second.tree.content? (idlPath settings root))
    (agree : AgreeOn settings root interface.name first.tree second.tree)
    (read : readIdl first.tree (idlPath settings root) = .ok document)
    (declared : interface ∈ document.interfaces) (notTypes : interface.name ≠ "types")
    (firstRan : ((generateWith parse settings root).run first).1 = .ok firstReport)
    (secondRan : ((generateWith parse settings root).run second).1 = .ok secondReport) :
    (interface.name ∈ firstReport.skipped ↔ interface.name ∈ secondReport.skipped) ∧
      firstReport.results.filter (·.interface = interface.name) =
        secondReport.results.filter (·.interface = interface.name) ∧
      (interface.name ∉ firstReport.skipped →
        ((generateWith parse settings root).run first).2.tree.content?
            (documentPath (outputDirectory settings root) interface.name) =
          ((generateWith parse settings root).run second).2.tree.content?
            (documentPath (outputDirectory settings root) interface.name)) := by
  have firstEffect := HasEffect.generateWith parse settings root first
  have secondEffect := HasEffect.generateWith parse settings root second
  rw [firstRan] at firstEffect
  rw [secondRan] at secondEffect
  obtain ⟨firstDocument, firstRead, firstSettled⟩ := plan_of_generated firstEffect.symm
  obtain ⟨secondDocument, secondRead, secondSettled⟩ := plan_of_generated secondEffect.symm
  obtain rfl := Except.ok.inj (read.symm.trans firstRead)
  obtain rfl := Except.ok.inj (read.symm.trans ((readIdl_congr sameIdl).trans secondRead))
  have firstSkipped := skipped_of_settle firstSettled
  have secondSkipped := skipped_of_settle secondSettled
  have results := results_congr agree firstSettled secondSettled
  refine ⟨?_, results, fun notSkipped => ?_⟩
  · rw [firstSkipped, secondSkipped]
    rfl
  · rw [firstSkipped] at notSkipped
    have isName : Idl.IsName interface.name := by
      obtain ⟨text, parsed⟩ := parse_of_readIdl read
      exact Idl.isName_of_parse parsed declared
    have firstSome := results_ne_nil firstSettled declared notSkipped
    have secondSome := results_ne_nil secondSettled declared notSkipped
    have firstEntry := entry_of_settle firstSettled (isName_of_results firstRead firstSettled)
      isName notTypes firstSome
    have secondEntry := entry_of_settle secondSettled (isName_of_results secondRead secondSettled)
      isName notTypes secondSome
    rw [← results] at secondEntry
    have sameEntry :
        ((generateWith parse settings root).run first).2.tree.entry?
            (documentPath (outputDirectory settings root) interface.name) =
          ((generateWith parse settings root).run second).2.tree.entry?
            (documentPath (outputDirectory settings root) interface.name) :=
      firstEntry.trans secondEntry.symm
    unfold FileTree.content?
    rw [sameEntry]

/-- An interface with one operation. -/
def runnable : Idl.Interface where
  name := "A"
  members := [.operation { name := some "run", returnType := "undefined" }]
  span := some ⟨1, 1⟩

/-- An interface with one attribute. -/
def neighbour : Idl.Interface where
  name := "B"
  members := [.attribute { name := "b", type := "long" }]
  span := some ⟨1, 1⟩

/-- All artifacts of A are there, and some others of B. -/
def besideNeighbour (artifacts : List (Location × Entry)) : FileTree where
  entries :=
    [(["spec"], .directory), (["spec", "context"], .directory), (["src"], .directory),
      (["lib"], .directory),
      (["spec", "context", "_webcodecs.idl"], .file (Text.encodeUtf8
        "interface A \x7b undefined run(); \x7d; interface B \x7b attribute long b; \x7d;".toList)),
      (["src", "A.h"], .file (Text.encodeUtf8 "class A \x7b\n  void Run(int x);\n\x7d;\n".toList)),
      (["src", "A.cpp"], .file (Text.encodeUtf8 "void A::Run(int x) \x7b\n\x7d\n".toList)),
      (["lib", "A.ts"],
        .file (Text.encodeUtf8 "class A \x7b\n  run() \x7b\x7d\n\x7d\n".toList))] ++ artifacts

/-- A run beside a neighbour whose header is missing. -/
def besideMissing : RunState := ⟨besideNeighbour [], []⟩

/-- A run beside a neighbour whose header is no text. -/
def besideUndecodable : RunState := ⟨besideNeighbour [(["src", "B.h"], .file [0xFF])], []⟩

/-- A viewed answer is the view of an answer. -/
theorem exists_of_map_eq_ok {Fault Value Other : Type} {answer : Except Fault Value}
    {view : Value → Other} {other : Other} (viewed : answer.map view = .ok other) :
    ∃ value, answer = .ok value ∧ view value = other := by
  cases answer with
  | ok value => exact ⟨value, rfl, Except.ok.inj viewed⟩
  | error fault => contradiction

/-- The document of A is the same beside a header that is missing and one that is no text. -/
theorem generate_isolates_brokenNeighbour :
    ((generate {} (.ofString "/")).run besideMissing).2.tree.content?
        (documentPath (outputDirectory {} (.ofString "/")) runnable.name) =
      ((generate {} (.ofString "/")).run besideUndecodable).2.tree.content?
        (documentPath (outputDirectory {} (.ofString "/")) runnable.name) := by
  have read : readIdl besideMissing.tree (idlPath {} (.ofString "/")) =
      .ok ⟨[.interface runnable, .interface neighbour]⟩ := by
    decide +kernel
  have sameIdl : besideMissing.tree.content? (idlPath {} (.ofString "/")) =
      besideUndecodable.tree.content? (idlPath {} (.ofString "/")) := by
    decide +kernel
  have agree : AgreeOn {} (.ofString "/") runnable.name besideMissing.tree
      besideUndecodable.tree := by
    unfold AgreeOn
    decide +kernel
  have declared : runnable ∈
      Idl.Document.interfaces ⟨[.interface runnable, .interface neighbour]⟩ := by
    decide +kernel
  have firstViewed : ((generate {} (.ofString "/")).run besideMissing).1.map
      (fun report => report.skipped.contains runnable.name) = .ok false := by
    decide +kernel
  have secondViewed : ((generate {} (.ofString "/")).run besideUndecodable).1.map
      (fun report => report.skipped.contains runnable.name) = .ok false := by
    decide +kernel
  obtain ⟨firstReport, firstRan, notSkipped⟩ := exists_of_map_eq_ok firstViewed
  obtain ⟨secondReport, secondRan, -⟩ := exists_of_map_eq_ok secondViewed
  have isolated := generate_isolates sameIdl agree read declared (by decide) firstRan secondRan
  exact isolated.2.2 fun member => by simp [member] at notSkipped

end InterfaceAudit.Project
