import InterfaceAudit.Proofs.Project.Isolation
import Mathlib.Algebra.GroupWithZero.Nat
import Mathlib.Logic.Relation

/-!
Schedules of reads.
The artifacts of all interfaces are read at the same time, by at most a fixed number of reads at
once. Reads may overlap in any order; what they answer is what reading one artifact after the other
answers.
-/

namespace InterfaceAudit.Project

open Relation (ReflTransGen)

variable {parse : String → Script.Tree} {settings : Settings} {root : Path}
  {tree : FileTree} {limit : Nat}

/-! ### Reads -/

/-- A read answers with a text, with nothing, or with a fault. -/
abbrev Answer := Except ReadFault (Option (List Char))

namespace Artifact

/-- Where there is no file, only a required artifact is at fault. -/
def absent (root : Path) (artifact : Artifact) : Answer :=
  if artifact.required then .error (.at root artifact.path .missingArtifact) else .ok none

def present (root : Path) (artifact : Artifact) (content : List UInt8) : Answer :=
  match textOf content with
  | .ok text => .ok (some text)
  | .error reason =>
    .error (.at root artifact.path fun path => .unreadableArtifact path reason)

/-- What a read answers when it is the only one. -/
def answer (tree : FileTree) (root : Path) (artifact : Artifact) : Answer :=
  match tree.content? artifact.path with
  | none => artifact.absent root
  | some content => artifact.present root content

end Artifact

/-- A read waits for a slot, holds it while the file is looked for and read, and gives it back. -/
inductive Phase where
  | waiting
  | admitted
  | found
  | answered (answer : Answer)
  | finished (answer : Answer)

namespace Phase

def holds : Phase → Bool
  | .admitted | .found | .answered _ => true
  | .waiting | .finished _ => false

/-- How many steps are left at most. -/
def rank : Phase → Nat
  | .waiting => 4
  | .admitted => 3
  | .found => 2
  | .answered _ => 1
  | .finished _ => 0

/-- The steps of one read. A slot is taken only while one is free. -/
inductive Step (tree : FileTree) (root : Path) (artifact : Artifact) (free : Prop) :
    Phase → Phase → Prop where
  | acquire (isFree : free) : Step tree root artifact free .waiting .admitted
  | miss (missing : tree.content? artifact.path = none) :
    Step tree root artifact free .admitted (.answered (artifact.absent root))
  | find {content : List UInt8} (stored : tree.content? artifact.path = some content) :
    Step tree root artifact free .admitted .found
  | read {content : List UInt8} (stored : tree.content? artifact.path = some content) :
    Step tree root artifact free .found (.answered (artifact.present root content))
  | release {answer : Answer} :
    Step tree root artifact free (.answered answer) (.finished answer)

/-- Every answer is the one of a read that is the only one. -/
def Sound (tree : FileTree) (root : Path) (artifact : Artifact) : Phase → Prop
  | .waiting | .admitted => True
  | .found => ∃ content, tree.content? artifact.path = some content
  | .answered answer | .finished answer => answer = artifact.answer tree root

variable {artifact : Artifact} {free : Prop} {phase next : Phase}

/-- A step of a read keeps its answer right. -/
theorem Step.sound (step : Step tree root artifact free phase next)
    (sound : phase.Sound tree root artifact) : next.Sound tree root artifact := by
  cases step with
  | acquire => trivial
  | miss missing => simp only [Sound, Artifact.answer, missing]
  | find stored => exact ⟨_, stored⟩
  | read stored => simp only [Sound, Artifact.answer, stored]
  | release => exact sound

theorem Step.rank_lt (step : Step tree root artifact free phase next) : next.rank < phase.rank := by
  cases step <;> simp [rank]

/-- A read that does not hold a slot takes one only while one is free. -/
theorem Step.holds (step : Step tree root artifact free phase next) :
    free ∧ phase.holds = false ∨ next.holds.toNat ≤ phase.holds.toNat := by
  cases step with
  | acquire isFree => exact .inl ⟨isFree, rfl⟩
  | miss => exact .inr (Nat.le_refl 1)
  | find => exact .inr (Nat.le_refl 1)
  | read => exact .inr (Nat.le_refl 1)
  | release => exact .inr (Nat.zero_le 1)

/-- A read that holds a slot can go on. -/
theorem exists_step_of_holds (free : Prop) (sound : phase.Sound tree root artifact)
    (holds : phase.holds = true) : ∃ next, Step tree root artifact free phase next := by
  cases phase with
  | waiting => contradiction
  | admitted =>
    cases stored : tree.content? artifact.path with
    | none => exact ⟨_, .miss stored⟩
    | some content => exact ⟨_, .find stored⟩
  | found =>
    obtain ⟨content, stored⟩ := sound
    exact ⟨_, .read stored⟩
  | answered answer => exact ⟨_, .release⟩
  | finished answer => contradiction

end Phase

/-! ### Schedules -/

/-- One read of an artifact. -/
structure Read where
  artifact : Artifact
  phase : Phase

/-- The reads of each interface, in the order of its artifacts. -/
abbrev Reads := List (List Read)

namespace Reads

def holders (reads : Reads) : Nat := reads.flatten.countP (·.phase.holds)

def rank (reads : Reads) : Nat := (reads.flatten.map (·.phase.rank)).sum

/-- One read makes a step; it may take a slot while the limit is not reached. -/
inductive Step (limit : Nat) (tree : FileTree) (root : Path) : Reads → Reads → Prop where
  | step (before after : Reads) (front back : List Read) (artifact : Artifact) (phase next : Phase)
    (steps : phase.Step tree root artifact
      (holders (before ++ (front ++ ⟨artifact, phase⟩ :: back) :: after) < limit) next) :
    Step limit tree root (before ++ (front ++ ⟨artifact, phase⟩ :: back) :: after)
      (before ++ (front ++ ⟨artifact, next⟩ :: back) :: after)

/-- At the start every read of every interface waits. -/
def start (settings : Settings) (root : Path) (candidates : List Candidate) : Reads :=
  candidates.map fun candidate =>
    (candidate.artifacts settings root).map fun artifact => ⟨artifact, .waiting⟩

/-- Reads make steps in any order. -/
def Reaches (limit : Nat) (tree : FileTree) (root : Path) : Reads → Reads → Prop :=
  ReflTransGen (Step limit tree root)

def Finished (reads : Reads) : Prop :=
  ∀ group ∈ reads, ∀ read ∈ group, ∃ answer, read.phase = .finished answer

/-- What holds in every state of a schedule. -/
structure Sound (limit : Nat) (tree : FileTree) (root : Path) (artifacts : List (List Artifact))
    (reads : Reads) : Prop where
  artifacts : reads.map (·.map Read.artifact) = artifacts
  answers : ∀ group ∈ reads, ∀ read ∈ group, read.phase.Sound tree root read.artifact
  bounded : reads.holders ≤ limit

variable {reads next : Reads} {artifacts : List (List Artifact)}

/-- One read is counted apart from the others. -/
theorem holders_split (before after : Reads) (front back : List Read) (artifact : Artifact)
    (phase : Phase) :
    holders (before ++ (front ++ ⟨artifact, phase⟩ :: back) :: after) =
      holders (before ++ (front ++ back) :: after) + phase.holds.toNat := by
  simp only [holders, List.flatten_append, List.flatten_cons, List.countP_append,
    List.countP_cons]
  cases phase.holds
  · simp
  · simp
    omega

/-- The rank of all reads is that of one read and the rest. -/
theorem rank_split (before after : Reads) (front back : List Read) (artifact : Artifact)
    (phase : Phase) :
    rank (before ++ (front ++ ⟨artifact, phase⟩ :: back) :: after) =
      rank (before ++ (front ++ back) :: after) + phase.rank := by
  simp only [rank, List.flatten_append, List.flatten_cons, List.map_append, List.map_cons,
    List.sum_append, List.sum_cons]
  omega

/-- A step of a schedule brings it nearer to its end. -/
theorem Step.rank_lt (step : Step limit tree root reads next) : next.rank < reads.rank := by
  obtain ⟨before, after, front, back, artifact, phase, next, steps⟩ := step
  rw [rank_split, rank_split]
  exact Nat.add_lt_add_left steps.rank_lt _

/-- A step admits a read only when a slot is free. -/
theorem Step.holders_le (step : Step limit tree root reads next) (bounded : reads.holders ≤ limit) :
    next.holders ≤ limit := by
  obtain ⟨before, after, front, back, artifact, phase, next, steps⟩ := step
  rw [holders_split] at bounded
  rw [holders_split]
  rcases steps.holds with ⟨free, idle⟩ | fewer
  · rw [holders_split, idle] at free
    have atMostOne := Bool.toNat_le next.holds
    exact Nat.le_trans (Nat.add_le_add_left atMostOne _) free
  · exact Nat.le_trans (Nat.add_le_add_left fewer _) bounded

/-- A step keeps the artifacts, the answers and the limit. -/
theorem Step.sound (step : Step limit tree root reads next)
    (sound : Sound limit tree root artifacts reads) : Sound limit tree root artifacts next := by
  have bounded := step.holders_le sound.bounded
  obtain ⟨before, after, front, back, artifact, phase, next, steps⟩ := step
  refine ⟨?_, ?_, bounded⟩
  · rw [← sound.artifacts]
    simp
  · have answers := sound.answers
    simp only [List.forall_mem_append, List.forall_mem_cons] at answers ⊢
    obtain ⟨earlier, ⟨left, here, right⟩, later⟩ := answers
    exact ⟨earlier, ⟨left, steps.sound here, right⟩, later⟩

/-- A schedule starts with nothing read and no slot taken. -/
theorem start_sound (limit : Nat) (tree : FileTree) (settings : Settings) (root : Path)
    (candidates : List Candidate) :
    Sound limit tree root (candidates.map (Candidate.artifacts settings root))
      (start settings root candidates) := by
  refine ⟨?_, ?_, ?_⟩
  · simp [start, Function.comp_def]
  · intro group groupMember read readMember
    obtain ⟨candidate, -, rfl⟩ := List.mem_map.mp groupMember
    obtain ⟨artifact, -, rfl⟩ := List.mem_map.mp readMember
    trivial
  · refine (List.countP_eq_zero.mpr fun read member => ?_).le.trans (Nat.zero_le limit)
    obtain ⟨group, groupMember, readMember⟩ := List.mem_flatten.mp member
    obtain ⟨candidate, -, rfl⟩ := List.mem_map.mp groupMember
    obtain ⟨artifact, -, rfl⟩ := List.mem_map.mp readMember
    exact Bool.false_ne_true

/-- Every state of a schedule is sound. -/
theorem Reaches.sound (reaches : Reaches limit tree root reads next)
    (sound : Sound limit tree root artifacts reads) : Sound limit tree root artifacts next := by
  induction reaches with
  | refl => exact sound
  | tail _ step inductionHypothesis => exact step.sound inductionHypothesis

/-- While a read is not finished, some read can make a step. -/
theorem exists_step (positive : 1 ≤ limit) (sound : Sound limit tree root artifacts reads)
    (unfinished : ¬ reads.Finished) : ∃ next, Step limit tree root reads next := by
  have steps_of {group : List Read} {read : Read} (groupMember : group ∈ reads)
      (readMember : read ∈ group)
      (steps : ∃ next, read.phase.Step tree root read.artifact (reads.holders < limit) next) :
      ∃ next, Step limit tree root reads next := by
    obtain ⟨before, after, rfl⟩ := List.append_of_mem groupMember
    obtain ⟨front, back, rfl⟩ := List.append_of_mem readMember
    obtain ⟨next, steps⟩ := steps
    exact ⟨_, .step before after front back read.artifact read.phase next steps⟩
  by_cases active : ∃ group ∈ reads, ∃ read ∈ group, read.phase.holds = true
  · obtain ⟨group, groupMember, read, readMember, holds⟩ := active
    exact steps_of groupMember readMember
      (Phase.exists_step_of_holds _ (sound.answers group groupMember read readMember) holds)
  · have noHolders : reads.holders = 0 := by
      refine List.countP_eq_zero.mpr fun read member holds => active ?_
      obtain ⟨group, groupMember, readMember⟩ := List.mem_flatten.mp member
      exact ⟨group, groupMember, read, readMember, holds⟩
    unfold Finished at unfinished
    push Not at unfinished
    obtain ⟨group, groupMember, read, readMember, unfinished⟩ := unfinished
    refine steps_of groupMember readMember ?_
    cases phase : read.phase with
    | waiting => exact ⟨_, .acquire (by omega)⟩
    | admitted => exact absurd ⟨group, groupMember, read, readMember, by rw [phase]; rfl⟩ active
    | found => exact absurd ⟨group, groupMember, read, readMember, by rw [phase]; rfl⟩ active
    | answered => exact absurd ⟨group, groupMember, read, readMember, by rw [phase]; rfl⟩ active
    | finished answer => exact absurd phase (unfinished answer)

/-- Every schedule can be continued until all reads are finished. -/
theorem Sound.finishes (positive : 1 ≤ limit) (sound : Sound limit tree root artifacts reads) :
    ∃ final, Reaches limit tree root reads final ∧ final.Finished := by
  induction measure : reads.rank using Nat.strong_induction_on generalizing reads with
  | _ rank inductionHypothesis =>
    by_cases finished : reads.Finished
    · exact ⟨reads, .refl, finished⟩
    · obtain ⟨next, step⟩ := exists_step positive sound finished
      obtain ⟨final, reaches, finished⟩ :=
        inductionHypothesis next.rank (measure ▸ step.rank_lt) (step.sound sound) rfl
      exact ⟨final, .head step reaches, finished⟩

end Reads

/-! ### Answers -/

def Read.answer? (read : Read) : Option Answer :=
  match read.phase with
  | .finished answer => some answer
  | _ => none

/-- The first fault, in the order of the artifacts, stands for all of them. -/
def collect (answers : List Answer) : Option (Except ReadFault ArtifactTexts) :=
  match answers.mapM id with
  | .error fault => some (.error fault)
  | .ok [some header, some implementation, some wrapper, narrative, tests] =>
    some (.ok { header, implementation, wrapper, narrative, tests })
  | .ok _ => none

/-- What the finished reads of an interface come to. -/
def gathered (group : List Read) : Option (Except ReadFault ArtifactTexts) :=
  (group.mapM Read.answer?).bind collect

/-- The answer for an optional artifact is what reading it gives. -/
theorem readOptional_eq (tree : FileTree) (root path : Path) :
    Artifact.answer tree root ⟨path, false⟩ = readOptional tree root path := by
  unfold Artifact.answer Artifact.absent Artifact.present readOptional
  cases tree.content? path with
  | none => rfl
  | some content => rfl

/-- The answer for a required artifact is what reading it gives. -/
theorem readRequired_eq (tree : FileTree) (root path : Path) :
    Artifact.answer tree root ⟨path, true⟩ = (readRequired tree root path).map some := by
  unfold Artifact.answer Artifact.absent Artifact.present readRequired readOptional
  cases tree.content? path with
  | none => rfl
  | some content =>
    dsimp only
    cases textOf content <;> rfl

/-- The answers of single reads come to what reading in the order of the artifacts gives. -/
theorem collect_artifacts (tree : FileTree) (root : Path) (layout : Layout) :
    collect ((layout.within root).artifacts.map (Artifact.answer tree root)) =
      some (readArtifacts tree root layout) := by
  simp only [Layout.artifacts, List.map_cons, List.map_nil, readRequired_eq, readOptional_eq,
    readArtifacts, collect]
  cases readRequired tree root (layout.within root).header with
  | error fault => rfl
  | ok header =>
    cases readRequired tree root (layout.within root).implementation with
    | error fault => rfl
    | ok implementation =>
      cases readRequired tree root (layout.within root).wrapper with
      | error fault => rfl
      | ok wrapper =>
        cases readOptional tree root (layout.within root).narrative with
        | error fault => rfl
        | ok narrative =>
          cases readOptional tree root (layout.within root).tests with
          | error fault => rfl
          | ok tests => rfl

/-- Finished reads have the answers of reads that are the only ones. -/
theorem answers_of_finished {group : List Read}
    (sound : ∀ read ∈ group, read.phase.Sound tree root read.artifact)
    (finished : ∀ read ∈ group, ∃ answer, read.phase = .finished answer) :
    group.mapM Read.answer? = some ((group.map Read.artifact).map (Artifact.answer tree root)) := by
  induction group with
  | nil => rfl
  | cons read group inductionHypothesis =>
    obtain ⟨soundHere, soundRest⟩ := List.forall_mem_cons.mp sound
    obtain ⟨⟨answer, phase⟩, finishedRest⟩ := List.forall_mem_cons.mp finished
    rw [phase] at soundHere
    obtain rfl : answer = read.artifact.answer tree root := soundHere
    have here : read.answer? = some (read.artifact.answer tree root) := by
      unfold Read.answer?
      rw [phase]
    rw [List.mapM_cons, here, inductionHypothesis soundRest finishedRest]
    rfl

/-- The finished reads of each interface come to what reading its artifacts in their order gives. -/
theorem Reads.Finished.gathered_eq {chosen : List Candidate} {reads : Reads}
    (finished : reads.Finished)
    (sound : reads.Sound limit tree root (chosen.map (Candidate.artifacts settings root))) :
    reads.map gathered = chosen.map fun candidate =>
      some (readArtifacts tree root (.ofInterface settings.paths candidate.interface.name)) := by
  have answered : reads.map gathered =
      (reads.map (·.map Read.artifact)).map fun artifacts =>
        collect (artifacts.map (Artifact.answer tree root)) := by
    rw [List.map_map]
    refine List.map_congr_left fun group member => ?_
    simp only [gathered, Function.comp_apply,
      answers_of_finished (sound.answers group member) (finished group member), Option.bind_some]
  rw [answered, sound.artifacts, List.map_map]
  exact List.map_congr_left fun candidate _ => collect_artifacts tree root _

/-! ### Runs -/

/-- A candidate is decided from what was read for it. -/
def Candidate.decisionFrom (parse : String → Script.Tree) (settings : Settings)
    (candidate : Candidate) :
    Except ReadFault ArtifactTexts → Decision
  | .ok texts =>
    match auditInterface parse settings candidate.interface candidate.subjects texts with
    | (outcome, events) => .decided ⟨candidate.interface.name, outcome⟩ events
  | .error (.structural fault) => .decided ⟨candidate.interface.name, .faulty fault⟩ []
  | .error (.outside path root) => .outside path root

/-- A run whose artifacts were read beforehand. -/
def generatedFrom (parse : String → Script.Tree) (settings : Settings) (root : Path)
    (readings : List (Except ReadFault ArtifactTexts)) : Effect Report := fun tree =>
  match readIdl tree (idlPath settings root) with
  | .error fault => (.error fault, tree)
  | .ok document =>
    { planFor parse settings root tree document with
      decisions :=
        List.zipWith (Candidate.decisionFrom parse settings) (candidates document) readings }.settle
      settings tree

/-- Reading one artifact after the other generates what the run generates. -/
theorem generatedFrom_eq {document : Idl.Document}
    (read : readIdl tree (idlPath settings root) = .ok document) :
    generatedFrom parse settings root ((candidates document).map fun candidate =>
        readArtifacts tree root (.ofInterface settings.paths candidate.interface.name)) tree =
      generated parse settings root tree := by
  have decisions : List.zipWith (Candidate.decisionFrom parse settings) (candidates document)
        ((candidates document).map fun candidate =>
          readArtifacts tree root (.ofInterface settings.paths candidate.interface.name)) =
      (candidates document).map (Candidate.decision parse settings tree root) := by
    rw [List.zipWith_map_right, List.zipWith_self]
    refine List.map_congr_left fun candidate _ => ?_
    rw [decision_eq]
    rfl
  unfold generatedFrom generated
  rw [plan_eq, read]
  simp only [decisions]
  rfl

/-- The order of the reads does not matter. At most as many reads as allowed hold a slot, every
schedule can be continued until all reads are finished, and then they come to what reading the
artifacts of one interface after the other gives, the first fault in the order of the artifacts
included; so the report and the tree of the run are the same. -/
theorem generate_scheduled (parse : String → Script.Tree) (settings : Settings) (root : Path)
    (state : RunState) (chosen : List Candidate) (reads : Reads) (positive : 1 ≤ limit)
    (reaches : Reads.Reaches limit state.tree root (Reads.start settings root chosen) reads) :
    reads.holders ≤ limit ∧
      (∃ final, Reads.Reaches limit state.tree root reads final ∧ final.Finished) ∧
      (reads.Finished →
        reads.map gathered = (chosen.map fun candidate =>
          some (readArtifacts state.tree root
            (.ofInterface settings.paths candidate.interface.name))) ∧
        (∀ candidate ∈ chosen,
          Reports root
            (readArtifacts state.tree root (.ofInterface settings.paths candidate.interface.name))
            (firstFault? state.tree (candidate.artifacts settings root))) ∧
        ∀ document readings, readIdl state.tree (idlPath settings root) = .ok document →
          chosen = candidates document → reads.map gathered = readings.map some →
          generatedFrom parse settings root readings state.tree =
            (((generateWith parse settings root).run state).1,
              ((generateWith parse settings root).run state).2.tree)) := by
  have sound := reaches.sound (Reads.start_sound limit state.tree settings root chosen)
  refine ⟨sound.bounded, sound.finishes positive, fun finished => ?_⟩
  have same := finished.gathered_eq sound
  refine ⟨same, fun candidate _ => candidate.reports settings state.tree root, ?_⟩
  rintro document readings read rfl answered
  have sequential : readings = (candidates document).map fun candidate =>
      readArtifacts state.tree root (.ofInterface settings.paths candidate.interface.name) := by
    refine List.map_injective_iff.mpr (fun _ _ => Option.some.inj) (answered.symm.trans ?_)
    rw [same, List.map_map]
    rfl
  rw [sequential, generatedFrom_eq read, HasEffect.generateWith parse settings root state]

/-- With one slot, the reads beside a neighbour without a header finish, and only those of the
neighbour come to a fault. -/
theorem generate_scheduled_besideMissing :
    ∃ final : Reads,
      Reads.Reaches 1 besideMissing.tree (.ofString "/")
        (Reads.start {} (.ofString "/")
          (candidates ⟨[.interface runnable, .interface neighbour]⟩)) final ∧
      final.holders ≤ 1 ∧
      final.map (fun group => (gathered group).map Except.isOk) = [some true, some false] := by
  have started := generate_scheduled Script.Tree.ofText {} (.ofString "/") besideMissing
    (candidates ⟨[.interface runnable, .interface neighbour]⟩) _ (Nat.le_refl 1) .refl
  obtain ⟨final, reaches, finished⟩ := started.2.1
  have ended := generate_scheduled Script.Tree.ofText {} (.ofString "/") besideMissing _ final
    (Nat.le_refl 1) reaches
  refine ⟨final, reaches, ended.1, ?_⟩
  have viewed := congrArg (List.map (Option.map Except.isOk)) (ended.2.2 finished).1
  rw [List.map_map] at viewed
  refine viewed.trans ?_
  decide +kernel

end InterfaceAudit.Project
