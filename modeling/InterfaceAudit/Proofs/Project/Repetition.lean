import InterfaceAudit.Proofs.Project.Output

/-!
Repeated runs.
A run reads nothing that it writes, so it neither sees what an earlier run left nor leaves anything
else than the first one did.
-/

namespace InterfaceAudit.Project

open FileTree (SameDirectories SameEntries)

variable {parse : String → Script.Tree} {settings : Settings} {root directory : Path}
  {tree first second after : FileTree}

/-! ### Trees with the same directories -/

/-- A result that was settled in one tree is settled in every tree with the same directories. -/
theorem settle_again {base : Location} {decision : Decision} {result : InterfaceResult}
    (same : first.SameDirectories second) (stands : StandsAt first directory base)
    (isName : Idl.IsName result.interface)
    (ran : settle settings directory decision first = (.ok result, after)) :
    first.SameDirectories after ∧
      ∃ other, settle settings directory decision second = (.ok result, other) ∧
        second.SameDirectories other := by
  obtain ⟨events, rfl⟩ := settles_of_settle ran
  have changes := settle_changes stands isName ran
  have writable : first.Writable (documentPath directory result.interface) :=
    ⟨documentPlace base result.interface, stands.resolve isName, changes.before⟩
  exact ⟨changes.sameDirectories,
    settle_decided settings events ((FileTree.Writable.congr same).mp writable)⟩

/-- Settling again on a tree with the same directories gives the same results. -/
theorem forEach_again {base : Location} {decisions : List Decision}
    {results : List InterfaceResult} (same : first.SameDirectories second)
    (stands : StandsAt first directory base)
    (isName : ∀ result ∈ results, Idl.IsName result.interface)
    (ran : Effect.forEach (settle settings directory) decisions first = (.ok results, after)) :
    first.SameDirectories after ∧
      ∃ other, Effect.forEach (settle settings directory) decisions second = (.ok results, other) ∧
        second.SameDirectories other := by
  induction decisions generalizing first second results with
  | nil =>
    obtain ⟨answer, rfl⟩ := Prod.mk.inj ran
    obtain rfl := Except.ok.inj answer
    exact ⟨.refl first, second, rfl, .refl second⟩
  | cons decision decisions inductionHypothesis =>
    obtain ⟨result, middle, rest, settled, others, rfl⟩ := Effect.forEach_cons_eq_ok.mp ran
    obtain ⟨resultIsName, restIsName⟩ := List.forall_mem_cons.mp isName
    obtain ⟨kept, otherMiddle, otherSettled, otherKept⟩ :=
      settle_again same stands resultIsName settled
    have sameMiddle := (kept.symm.trans same).trans otherKept
    obtain ⟨keptLast, other, otherOthers, otherKeptLast⟩ :=
      inductionHypothesis sameMiddle (stands.congr kept) restIsName others
    refine ⟨kept.trans keptLast, other, ?_, otherKept.trans otherKeptLast⟩
    exact Effect.forEach_cons_eq_ok.mpr
      ⟨result, otherMiddle, rest, otherSettled, otherOthers, rfl⟩

/-- The output directory is made alike in trees with the same entries. -/
theorem makeOutput_again {made : FileTree} (same : first.SameEntries second)
    (output : Effect.makeOutput directory first = (.ok (), made)) :
    ∃ otherMade, Effect.makeOutput directory second = (.ok (), otherMade) ∧
      made.SameEntries otherMade := by
  have alike := same.makeDirectories directory.anchor directory.names.reverse
  unfold Effect.makeOutput FileTree.ensureDirectories at output ⊢
  cases firstMade : first.makeDirectories directory.anchor directory.names.reverse with
  | mk firstTree firstFault =>
    cases secondMade : second.makeDirectories directory.anchor directory.names.reverse with
    | mk secondTree secondFault =>
      rw [firstMade, secondMade] at alike
      obtain ⟨sameTrees, rfl : firstFault = secondFault⟩ := alike
      rw [firstMade] at output
      cases firstFault with
      | some fault => exact absurd (Prod.mk.inj output).1 nofun
      | none =>
        obtain rfl := (Prod.mk.inj output).2
        exact ⟨secondTree, rfl, sameTrees⟩

/-! ### Plans that are carried out again -/

/-- The places that belong to some results: theirs and that of the types. -/
def ownPlaces (base : Location) (results : List InterfaceResult) : List Location :=
  documentPlace base "types" :: results.map fun result => documentPlace base result.interface

/-- What a plan does once its output directory is made. -/
def Plan.Fills (plan : Plan) (settings : Settings) (results : List InterfaceResult)
    (made after : FileTree) : Prop :=
  ∃ left, Effect.forEach (Project.settle settings plan.outputDirectory) plan.decisions made =
      (.ok results, left) ∧
    left.write (typesPath plan.outputDirectory) (documentBytes settings plan.types.json) = .ok after

/-- A plan makes its output directory and then fills it. -/
theorem Plan.settle_iff_fills {plan : Plan} {report : Report} :
    plan.settle settings tree = (.ok report, after) ↔
      ∃ made results, Effect.makeOutput plan.outputDirectory tree = (.ok (), made) ∧
        plan.Fills settings results made after ∧ report = plan.report results := by
  rw [Plan.settle_eq_ok]
  constructor
  · rintro ⟨made, results, left, output, settled, written, rfl⟩
    exact ⟨made, results, output, ⟨left, settled, written⟩, rfl⟩
  · rintro ⟨made, results, output, ⟨left, settled, written⟩, rfl⟩
    exact ⟨made, results, left, output, settled, written, rfl⟩

/-- What a plan leaves at its own places does not depend on what stood there, and elsewhere it
leaves everything as it was. -/
theorem Plan.Fills.again {plan : Plan} {base : Location} {results : List InterfaceResult}
    (fills : plan.Fills settings results first after) (same : first.SameDirectories second)
    (stands : StandsAt first plan.outputDirectory base)
    (isName : ∀ result ∈ results, Idl.IsName result.interface) :
    first.SameDirectories after ∧
      ∃ other, plan.Fills settings results second other ∧ second.SameDirectories other ∧
        (∀ location ∈ ownPlaces base results, other.get? location = after.get? location) ∧
        ∀ location, location ∉ ownPlaces base results →
          after.get? location = first.get? location ∧
            other.get? location = second.get? location := by
  obtain ⟨left, settled, written⟩ := fills
  obtain ⟨kept, otherLeft, otherSettled, otherKept⟩ := forEach_again same stands isName settled
  have otherStands := stands.congr same
  rw [typesPath_eq] at written
  have resolved := (stands.congr kept).resolve isName_types
  have otherResolved := (otherStands.congr otherKept).resolve isName_types
  have changes := FileTree.write_changes resolved written
  have writable : left.Writable (documentPath plan.outputDirectory "types") :=
    ⟨_, resolved, changes.before⟩
  have sameLeft := (kept.symm.trans same).trans otherKept
  obtain ⟨other, otherWritten, otherKeptLast⟩ :=
    ((FileTree.Writable.congr sameLeft).mp writable).write
      (documentBytes settings plan.types.json)
  have otherChanges := FileTree.write_changes otherResolved otherWritten
  refine ⟨kept.trans changes.sameDirectories, other, ⟨otherLeft, otherSettled, otherWritten⟩,
    otherKept.trans otherKeptLast, ?_, ?_⟩
  · intro location member
    by_cases isTypes : location = documentPlace base "types"
    · subst isTypes
      rw [changes.here, otherChanges.here]
    · obtain ⟨result, resultMember, rfl⟩ :=
        List.mem_map.mp (List.mem_of_ne_of_mem isTypes member)
      have some : results.filter (·.interface = result.interface) ≠ [] :=
        List.ne_nil_of_mem (List.mem_filter.mpr ⟨resultMember, by simp⟩)
      rw [changes.elsewhere _ isTypes, otherChanges.elsewhere _ isTypes,
        (forEach_entry stands isName settled result.interface).2,
        (forEach_entry otherStands isName otherSettled result.interface).2]
      exact heldAfter_of_ne_nil some _ _
  · intro location foreign
    rw [ownPlaces, List.mem_cons, not_or] at foreign
    obtain ⟨notTypes, notResult⟩ := foreign
    have apart (result : InterfaceResult) (member : result ∈ results) :
        location ≠ documentPlace base result.interface :=
      fun here => notResult (List.mem_map.mpr ⟨result, member, here.symm⟩)
    rw [changes.elsewhere location notTypes, otherChanges.elsewhere location notTypes]
    exact ⟨forEach_elsewhere stands isName settled apart,
      forEach_elsewhere otherStands isName otherSettled apart⟩

/-! ### Paths of a run -/

/-- The paths that a run for a document writes or removes. -/
def outputPaths (settings : Settings) (root : Path) (document : Idl.Document) : List Path :=
  typesPath (outputDirectory settings root) :: (candidates document).map fun candidate =>
    documentPath (outputDirectory settings root) candidate.interface.name

/-- The paths that a run for a document reads. -/
def inputPaths (settings : Settings) (root : Path) (document : Idl.Document) : List Path :=
  idlPath settings root :: (candidates document).flatMap fun candidate =>
    (candidate.artifacts settings root).map Artifact.path

/-- No path of the first list leads where a path of the second one leads. -/
def LeadApart (tree : FileTree) (outputs inputs : List Path) : Prop :=
  ∀ output ∈ outputs, ∀ input ∈ inputs, tree.resolve output ≠ tree.resolve input

/-- A path that leads to a file in the second tree leads somewhere in the first one already. -/
def OpensNoWay (before after : FileTree) (paths : List Path) : Prop :=
  ∀ path ∈ paths, after.content? path ≠ none → (before.resolve path).isOk

/-- The trees have the same directories, and the same files elsewhere. -/
def DifferAt (paths : List Path) (first second : FileTree) : Prop :=
  first.SameDirectories second ∧
    ∀ location, (∀ path ∈ paths, first.resolve path ≠ .ok location) →
      first.get? location = second.get? location

/-- Trees with the same inputs have the same plan. -/
theorem plan_congr {document : Idl.Document}
    (read : readIdl first (idlPath settings root) = .ok document)
    (same : ∀ input ∈ inputPaths settings root document,
      first.content? input = second.content? input) :
    plan parse settings root second = .ok (planFor parse settings root first document) := by
  obtain ⟨sameIdl, sameArtifacts⟩ := List.forall_mem_cons.mp same
  have decisions : (candidates document).map (Candidate.decision parse settings first root) =
      (candidates document).map (Candidate.decision parse settings second root) := by
    refine List.map_congr_left fun candidate member => decision_congr candidate ?_
    intro artifact artifactMember
    exact sameArtifacts _ (List.mem_flatMap.mpr
      ⟨candidate, member, List.mem_map.mpr ⟨artifact, artifactMember, rfl⟩⟩)
  rw [plan_eq, ← readIdl_congr sameIdl, read]
  simp only [Except.map, planFor, decisions]

/-- A run that goes through has made its output directory and filled it. -/
structure Carried (parse : String → Script.Tree) (settings : Settings) (root : Path)
    (tree : FileTree) (report : Report) (after : FileTree) (document : Idl.Document)
    (made : FileTree) (base : Location) : Prop where
  read : readIdl tree (idlPath settings root) = .ok document
  output : Effect.makeOutput (outputDirectory settings root) tree = (.ok (), made)
  stands : StandsAt made (outputDirectory settings root) base
  fills : (planFor parse settings root tree document).Fills settings report.results made after
  report_eq : report = (planFor parse settings root tree document).report report.results
  isName : ∀ result ∈ report.results, Idl.IsName result.interface
  interfaces : report.results.map InterfaceResult.interface =
    (candidates document).map fun candidate => candidate.interface.name

/-- A run that goes through has read its document and filled its directory. -/
theorem carried_of_generated {report : Report}
    (ran : generated parse settings root tree = (.ok report, after)) :
    ∃ document made base, Carried parse settings root tree report after document made base := by
  obtain ⟨document, read, settled⟩ := plan_of_generated ran
  obtain ⟨made, results, output, fills, rfl⟩ := Plan.settle_iff_fills.mp settled
  obtain ⟨base, stands⟩ := standsAt_of_makeOutput output
  exact ⟨document, made, base, read, output, stands, fills, rfl,
    isName_of_results read settled, interfaces_of_plan settled⟩

namespace Carried

variable {report : Report} {document : Idl.Document} {made : FileTree} {base : Location}
  (carried : Carried parse settings root tree report after document made base)

include carried

theorem grows : tree.Grows made := makeOutput_grows carried.output

theorem keeps : made.SameDirectories after :=
  (carried.fills.again (.refl made) carried.stands carried.isName).1

theorem standsAfter : StandsAt after (outputDirectory settings root) base :=
  carried.stands.congr carried.keeps

/-- A place that can be reached in the tree as it was found can be reached afterwards. -/
theorem resolve_after {path : Path} {location : Location}
    (resolved : tree.resolve path = .ok location) : after.resolve path = .ok location := by
  refine FileTree.locate_of_directories (fun other isDirectory => ?_) resolved
  refine (carried.keeps other).mp ?_
  rcases carried.grows other with same | ⟨missing, -⟩
  · exact same.trans isDirectory
  · rw [missing] at isDirectory
    contradiction

/-- The places of a run are those of the paths that it writes or removes. -/
theorem mem_ownPlaces_iff {location : Location} :
    location ∈ ownPlaces base report.results ↔
      ∃ output ∈ outputPaths settings root document, after.resolve output = .ok location := by
  have typesResolved := carried.standsAfter.resolve isName_types
  have places : ownPlaces base report.results =
      documentPlace base "types" :: (candidates document).map fun candidate =>
        documentPlace base candidate.interface.name := by
    have mapped := congrArg (List.map (documentPlace base)) carried.interfaces
    rw [List.map_map, List.map_map] at mapped
    exact congrArg (documentPlace base "types" :: ·) mapped
  rw [places, List.mem_cons, List.mem_map]
  constructor
  · rintro (rfl | ⟨candidate, member, rfl⟩)
    · exact ⟨_, List.mem_cons_self .., typesResolved⟩
    · exact ⟨_, List.mem_cons_of_mem _ (List.mem_map.mpr ⟨candidate, member, rfl⟩),
        carried.standsAfter.resolve (isName_of_candidate carried.read member)⟩
  · rintro ⟨output, member, resolved⟩
    rcases List.mem_cons.mp member with rfl | member
    · exact .inl (Except.ok.inj (resolved.symm.trans typesResolved))
    · obtain ⟨candidate, chosen, rfl⟩ := List.mem_map.mp member
      have candidateResolved :=
        carried.standsAfter.resolve (isName_of_candidate carried.read chosen)
      exact .inr ⟨candidate, chosen, Except.ok.inj (candidateResolved.symm.trans resolved)⟩

/-- Filling changes no place beside the own ones. -/
theorem elsewhere {location : Location} (foreign : location ∉ ownPlaces base report.results) :
    after.get? location = made.get? location := by
  obtain ⟨-, _, -, -, -, elsewhere⟩ :=
    carried.fills.again (.refl made) carried.stands carried.isName
  exact (elsewhere location foreign).1

/-- Whatever is no place of the run is as before, or a new directory. -/
theorem keepsAt {location : Location} (foreign : location ∉ ownPlaces base report.results) :
    tree.KeepsAt after location := by
  rw [FileTree.KeepsAt, carried.elsewhere foreign]
  exact carried.grows location

/-- An input that leads somewhere leads to no place of the run. -/
theorem input_foreign {input : Path} {location : Location}
    (apart : LeadApart after (outputPaths settings root document)
      (inputPaths settings root document))
    (member : input ∈ inputPaths settings root document)
    (resolved : tree.resolve input = .ok location) :
    location ∉ ownPlaces base report.results := by
  intro own
  obtain ⟨output, outputMember, outputResolved⟩ := carried.mem_ownPlaces_iff.mp own
  refine apart output outputMember input member ?_
  rw [outputResolved, carried.resolve_after resolved]

/-- A run leaves its inputs as they are. -/
theorem content?_after
    (apart : LeadApart after (outputPaths settings root document)
      (inputPaths settings root document))
    (closed : OpensNoWay tree after (inputPaths settings root document))
    {input : Path} (member : input ∈ inputPaths settings root document) :
    tree.content? input = after.content? input := by
  cases resolved : tree.resolve input with
  | error fault =>
    have missing : after.content? input = none := by
      by_contra found
      have leads := closed input member found
      rw [resolved] at leads
      contradiction
    rw [missing]
    unfold FileTree.content? FileTree.entry?
    rw [resolved]
  | ok location =>
    have kept := carried.keepsAt (carried.input_foreign apart member resolved)
    unfold FileTree.content? FileTree.entry?
    rw [resolved, carried.resolve_after resolved]
    rcases kept with same | ⟨missing, made⟩
    · simp only [same]
    · simp only [missing, made]

/-- A plan that does the same in another tree, whose output directory is made with the same
directories around it, gives the same report there and leaves the same at its own places. -/
theorem again {other otherMade : FileTree}
    (planned : plan parse settings root other = .ok (planFor parse settings root tree document))
    (output : Effect.makeOutput (outputDirectory settings root) other = (.ok (), otherMade))
    (same : made.SameDirectories otherMade)
    (elsewhere : ∀ location, location ∉ ownPlaces base report.results →
      made.get? location = otherMade.get? location) :
    ∃ otherAfter, generated parse settings root other = (.ok report, otherAfter) ∧
      otherAfter.SameEntries after := by
  obtain ⟨-, otherAfter, fills, -, own, foreign⟩ :=
    carried.fills.again same carried.stands carried.isName
  refine ⟨otherAfter, ?_, fun location => ?_⟩
  · unfold generated
    rw [planned]
    exact Plan.settle_iff_fills.mpr ⟨otherMade, _, output, fills, carried.report_eq⟩
  · by_cases member : location ∈ ownPlaces base report.results
    · exact own location member
    · obtain ⟨left, right⟩ := foreign location member
      rw [left, right, elsewhere location member]

/-- The same run once more gives the same report and leaves everything as it is. -/
theorem repeats
    (apart : LeadApart after (outputPaths settings root document)
      (inputPaths settings root document))
    (closed : OpensNoWay tree after (inputPaths settings root document)) :
    ∃ other, generated parse settings root after = (.ok report, other) ∧
      other.SameEntries after := by
  have planned : plan parse settings root after = .ok (planFor parse settings root tree document) :=
    plan_congr carried.read fun _ => carried.content?_after apart closed
  have output : Effect.makeOutput (outputDirectory settings root) after = (.ok (), after) := by
    unfold Effect.makeOutput
    rw [FileTree.ensureDirectories_of_stands ⟨base, carried.standsAfter⟩]
  exact carried.again planned output carried.keeps fun _ foreign =>
    (carried.elsewhere foreign).symm

/-- A path of the output that leads somewhere goes through the output directory. -/
theorem stands_of_output {output : Path} {location : Location}
    (member : output ∈ outputPaths settings root document)
    (resolved : tree.resolve output = .ok location) :
    tree.Stands (outputDirectory settings root) := by
  have document {name : String} (isName : Idl.IsName name)
      (resolved : tree.resolve (documentPath (outputDirectory settings root) name) =
        .ok location) : tree.Stands (outputDirectory settings root) := by
    rw [documentPath_of_isName isName] at resolved
    obtain ⟨parent, found, isDirectory, -⟩ :=
      (FileTree.locate_concat (name_ne_dots name)).mp resolved
    exact ⟨parent, FileTree.locate_of_directories (fun _ => id) found, isDirectory⟩
  rcases List.mem_cons.mp member with rfl | member
  · exact document isName_types resolved
  · obtain ⟨candidate, chosen, rfl⟩ := List.mem_map.mp member
    exact document (isName_of_candidate carried.read chosen) resolved

/-- Trees that differ at the output alone make the same of the output directory. -/
theorem output_again {other : FileTree}
    (differ : DifferAt (outputPaths settings root document) tree other) :
    ∃ otherMade, Effect.makeOutput (outputDirectory settings root) other = (.ok (), otherMade) ∧
      made.SameDirectories otherMade ∧
      ∀ location, location ∉ ownPlaces base report.results →
        made.get? location = otherMade.get? location := by
  obtain ⟨sameDirectories, sameElsewhere⟩ := differ
  have output := carried.output
  by_cases stands : tree.Stands (outputDirectory settings root)
  · have otherStands := (FileTree.Stands.congr sameDirectories).mp stands
    unfold Effect.makeOutput at output ⊢
    rw [FileTree.ensureDirectories_of_stands stands] at output
    rw [FileTree.ensureDirectories_of_stands otherStands]
    obtain rfl := (Prod.mk.inj output).2
    refine ⟨other, rfl, sameDirectories, fun location foreign => sameElsewhere location ?_⟩
    exact fun path member resolved => foreign
      (carried.mem_ownPlaces_iff.mpr ⟨path, member, carried.resolve_after resolved⟩)
  · -- Nothing leads to the output yet, so the trees do not differ at all.
    have same : tree.SameEntries other := fun location =>
      sameElsewhere location fun path member resolved =>
        stands (carried.stands_of_output member resolved)
    obtain ⟨otherMade, otherOutput, sameMade⟩ := makeOutput_again same output
    refine ⟨otherMade, otherOutput, fun location => ?_, fun location _ => sameMade location⟩
    rw [sameMade location]

/-- What stands at the output makes no difference. -/
theorem independent {other : FileTree}
    (apart : LeadApart after (outputPaths settings root document)
      (inputPaths settings root document))
    (differ : DifferAt (outputPaths settings root document) tree other) :
    ∃ otherAfter, generated parse settings root other = (.ok report, otherAfter) ∧
      otherAfter.SameEntries after := by
  have sameInputs (input : Path) (member : input ∈ inputPaths settings root document) :
      tree.content? input = other.content? input := by
    unfold FileTree.content? FileTree.entry?
    cases resolved : tree.resolve input with
    | error fault =>
      cases otherResolved : other.resolve input with
      | error otherFault => rfl
      | ok location =>
        rw [← FileTree.resolve_congr differ.1, resolved] at otherResolved
        contradiction
    | ok location =>
      have foreign := carried.input_foreign apart member resolved
      rw [(FileTree.resolve_congr differ.1).mp resolved]
      dsimp only
      rw [differ.2 location fun path pathMember pathResolved => foreign
        (carried.mem_ownPlaces_iff.mpr ⟨path, pathMember, carried.resolve_after pathResolved⟩)]
  obtain ⟨otherMade, output, same, elsewhere⟩ := carried.output_again differ
  exact carried.again (plan_congr carried.read sameInputs) output same elsewhere

end Carried

/-! ### Repeated runs -/

/-- What a run generates is what its action answers and leaves. -/
theorem run_of_generated (state : RunState) {report : Report}
    (ran : generated parse settings root state.tree = (.ok report, after)) :
    ((generateWith parse settings root).run state).1 = .ok report ∧
      ((generateWith parse settings root).run state).2.tree = after :=
  Prod.mk.inj ((HasEffect.generateWith parse settings root state).trans ran)

/-- No path of the output of a run leads to one of its inputs. If the directories that it makes
open no way to an input, then the run gives the same report once more and leaves every place as it
is. And whatever stood at the output before, the report and what is left are the same. -/
theorem generate_repeats {document : Idl.Document} {state : RunState} {report : Report}
    (ran : ((generateWith parse settings root).run state).1 = .ok report)
    (read : readIdl state.tree (idlPath settings root) = .ok document)
    (apart : LeadApart ((generateWith parse settings root).run state).2.tree
      (outputPaths settings root document) (inputPaths settings root document)) :
    let left := ((generateWith parse settings root).run state).2.tree
    (OpensNoWay state.tree left (inputPaths settings root document) →
      ∀ events, ((generateWith parse settings root).run ⟨left, events⟩).1 = .ok report ∧
        ((generateWith parse settings root).run ⟨left, events⟩).2.tree.SameEntries left) ∧
      ∀ other : RunState,
        DifferAt (outputPaths settings root document) state.tree other.tree →
          ((generateWith parse settings root).run other).1 = .ok report ∧
            ((generateWith parse settings root).run other).2.tree.SameEntries left := by
  intro left
  have effect := HasEffect.generateWith parse settings root state
  rw [ran] at effect
  obtain ⟨sameDocument, made, base, carried⟩ := carried_of_generated effect.symm
  obtain rfl := Except.ok.inj (read.symm.trans carried.read)
  constructor
  · intro closed events
    obtain ⟨after, ranAgain, same⟩ := carried.repeats apart closed
    obtain ⟨answer, rfl⟩ := run_of_generated ⟨left, events⟩ ranAgain
    exact ⟨answer, same⟩
  · intro other differ
    obtain ⟨after, ranOther, same⟩ := carried.independent apart differ
    obtain ⟨answer, rfl⟩ := run_of_generated other ranOther
    exact ⟨answer, same⟩

/-- The output of this project holds documents of an earlier run, one of them of an interface that
is at fault by now. -/
def besideStale : RunState where
  tree := besideNeighbour
    [(["docs"], .directory), (["docs", "tasks"], .directory),
      (["docs", "tasks", "A.json"], .file (Text.encodeUtf8 "stale".toList)),
      (["docs", "tasks", "B.json"], .file (Text.encodeUtf8 "stale".toList))]
  events := []

/-- Without a file at the output a tree differs at the output alone. -/
theorem differAt_erase {paths : List Path} {path : Path} {location : Location}
    {content : List UInt8} (member : path ∈ paths) (resolved : tree.resolve path = .ok location)
    (isFile : tree.get? location = some (.file content)) :
    DifferAt paths tree (tree.erase location) := by
  have notDirectory : tree.get? location ≠ some .directory := by
    rw [isFile]
    nofun
  have nested := FileTree.ne_root_of_get? notDirectory
  constructor
  · intro other
    rw [FileTree.get?_erase nested]
    split
    · next here => exact ⟨fun isDirectory => absurd (here ▸ isDirectory) notDirectory, nofun⟩
    · rfl
  · intro other elsewhere
    rw [FileTree.get?_erase nested, if_neg]
    rintro rfl
    exact elsewhere path member resolved

/-- The run can be repeated, and it does not matter that a document was there. -/
theorem generate_repeats_besideStale :
    ((generate {} (.ofString "/")).run ((generate {} (.ofString "/")).run besideStale).2).1 =
        ((generate {} (.ofString "/")).run besideStale).1 ∧
      ((generate {} (.ofString "/")).run
          ⟨besideStale.tree.erase ["docs", "tasks", "A.json"], []⟩).1 =
        ((generate {} (.ofString "/")).run besideStale).1 := by
  have viewed : ((generate {} (.ofString "/")).run besideStale).1.map
      (fun report => report.results.map InterfaceResult.isWritten) = .ok [true, false] := by
    decide +kernel
  have read : readIdl besideStale.tree (idlPath {} (.ofString "/")) =
      .ok ⟨[.interface runnable, .interface neighbour]⟩ := by
    decide +kernel
  have apart : LeadApart ((generate {} (.ofString "/")).run besideStale).2.tree
      (outputPaths {} (.ofString "/") ⟨[.interface runnable, .interface neighbour]⟩)
      (inputPaths {} (.ofString "/") ⟨[.interface runnable, .interface neighbour]⟩) := by
    unfold LeadApart
    decide +kernel
  have closed : OpensNoWay besideStale.tree
      ((generate {} (.ofString "/")).run besideStale).2.tree
      (inputPaths {} (.ofString "/") ⟨[.interface runnable, .interface neighbour]⟩) := by
    unfold OpensNoWay
    decide +kernel
  have differ : DifferAt
      (outputPaths {} (.ofString "/") ⟨[.interface runnable, .interface neighbour]⟩)
      besideStale.tree (besideStale.tree.erase ["docs", "tasks", "A.json"]) := by
    have member : documentPath (outputDirectory {} (.ofString "/")) "A" ∈
        outputPaths {} (.ofString "/") ⟨[.interface runnable, .interface neighbour]⟩ := by
      decide +kernel
    have isFile : besideStale.tree.get? ["docs", "tasks", "A.json"] =
        some (.file (Text.encodeUtf8 "stale".toList)) := by
      decide +kernel
    exact differAt_erase member (by decide +kernel) isFile
  obtain ⟨report, ran, -⟩ := exists_of_map_eq_ok viewed
  obtain ⟨repeats, independent⟩ := generate_repeats ran read apart
  rw [ran]
  exact ⟨(repeats closed _).1, (independent ⟨_, []⟩ differ).1⟩

/-- The way to the headers leads through the output directory. -/
def detourSettings (settings : Settings) : Settings :=
  { settings with
    paths := { settings.paths with headerDirectory := .ofString "docs/tasks/../../src" } }

/-- The output directory of this project is not there yet. -/
def detour : RunState where
  tree :=
    { entries :=
        [(["spec"], .directory), (["spec", "context"], .directory), (["src"], .directory),
          (["spec", "context", "_webcodecs.idl"],
            .file (Text.encodeUtf8 "interface A { attribute long a; };".toList)),
          (["src", "A.h"], .file (Text.encodeUtf8 "class A {
};
".toList))] }
  events := []

def detourDocument : Idl.Document where
  definitions :=
    [.interface
      { name := "A", members := [.attribute { name := "a", type := "long" }], span := some ⟨1, 1⟩ }]

/-- The first run finds no header; the second one does, for the first one has made the way. -/
theorem generate_opens_detour :
    readIdl detour.tree (idlPath (detourSettings {}) (.ofString "/")) = .ok detourDocument ∧
      LeadApart ((generate (detourSettings {}) (.ofString "/")).run detour).2.tree
        (outputPaths (detourSettings {}) (.ofString "/") detourDocument)
        (inputPaths (detourSettings {}) (.ofString "/") detourDocument) ∧
      ((generate (detourSettings {}) (.ofString "/")).run detour).1.map
          (fun report => report.results.map fun result =>
            result.fault?.map StructuralFault.message) =
        .ok [some "Artifact not found: docs/tasks/../../src/A.h"] ∧
      ((generate (detourSettings {}) (.ofString "/")).run
          ((generate (detourSettings {}) (.ofString "/")).run detour).2).1.map
          (fun report => report.results.map fun result =>
            result.fault?.map StructuralFault.message) =
        .ok [some "Artifact not found: src/A.cpp"] := by
  refine ⟨by decide +kernel, ?_, by decide +kernel, by decide +kernel⟩
  unfold LeadApart
  decide +kernel

end InterfaceAudit.Project
