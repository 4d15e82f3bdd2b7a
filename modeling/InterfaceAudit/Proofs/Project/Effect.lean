import InterfaceAudit.Project.Run

/-!
Effects of a run on the tree of files.
What is logged does not act on the tree, so a run is known by what it answers and leaves for each
tree it finds.
-/

namespace InterfaceAudit.Project

variable {First Second Value : Type}

/-- An action goes on after an answer, and stops with a fault. -/
theorem run_bind (action : Running First) (next : First → Running Second) (state : RunState) :
    (action >>= next).run state =
      match action.run state with
      | (.ok value, left) => (next value).run left
      | (.error fault, left) => (.error fault, left) := by
  unfold ExceptT.run
  simp only [Bind.bind, ExceptT.bind, ExceptT.mk, StateT.bind]
  cases action state with
  | mk answer left => cases answer <;> rfl

theorem run_get (state : RunState) : (get : Running RunState).run state = (.ok state, state) := rfl

/-! ### Effects -/

/-- An effect gives an answer and leaves a tree. -/
abbrev Effect (Value : Type) := FileTree → Except RunFault Value × FileTree

namespace Effect

/-- The second effect is due only after an answer of the first. -/
def andThen (first : Effect First) (second : First → Effect Second) : Effect Second :=
  fun tree =>
    match first tree with
    | (.ok value, left) => second value left
    | (.error fault, left) => (.error fault, left)

/-- Two effects succeed when the second one succeeds on what the first one leaves. -/
theorem andThen_eq_ok {first : Effect First} {second : First → Effect Second} {value : Second}
    {tree after : FileTree} :
    first.andThen second tree = (.ok value, after) ↔
      ∃ firstValue middle, first tree = (.ok firstValue, middle) ∧
        second firstValue middle = (.ok value, after) := by
  unfold andThen
  constructor
  · intro ran
    split at ran
    · next firstValue middle found => exact ⟨firstValue, middle, found, ran⟩
    · exact absurd (Prod.mk.inj ran).1 nofun
  · rintro ⟨firstValue, middle, found, ran⟩
    rw [found]
    exact ran

/-- A fault of two effects is a fault of one of them. -/
theorem andThen_eq_error {first : Effect First} {second : First → Effect Second}
    {fault : RunFault} {tree after : FileTree}
    (ran : first.andThen second tree = (.error fault, after)) :
    first tree = (.error fault, after) ∨
      ∃ value middle, second value middle = (.error fault, after) := by
  unfold andThen at ran
  split at ran
  · next value middle found => exact .inr ⟨value, middle, ran⟩
  · next other left found =>
    obtain ⟨same, rfl⟩ := Prod.mk.inj ran
    obtain rfl := Except.error.inj same
    exact .inl found

/-- One effect for each item, up to the first fault. -/
def forEach (effect : First → Effect Second) : List First → Effect (List Second)
  | [] => fun tree => (.ok [], tree)
  | item :: items =>
    (effect item).andThen fun value =>
      (forEach effect items).andThen fun values tree => (.ok (value :: values), tree)

/-- The first item is dealt with before the others. -/
theorem forEach_cons_eq_ok {effect : First → Effect Second} {item : First} {items : List First}
    {values : List Second} {tree after : FileTree} :
    forEach effect (item :: items) tree = (.ok values, after) ↔
      ∃ value middle rest, effect item tree = (.ok value, middle) ∧
        forEach effect items middle = (.ok rest, after) ∧ values = value :: rest := by
  simp only [forEach, andThen_eq_ok]
  constructor
  · rintro ⟨value, middle, first, rest, left, others, last⟩
    obtain ⟨same, rfl⟩ := Prod.mk.inj last
    exact ⟨value, middle, rest, first, others, (Except.ok.inj same).symm⟩
  · rintro ⟨value, middle, rest, first, others, rfl⟩
    exact ⟨value, middle, first, rest, after, others, rfl⟩

/-- A change that is refused leaves the tree as it is. -/
def change (action : FileTree → Except FileFault FileTree) : Effect Unit := fun tree =>
  match action tree with
  | .ok changed => (.ok (), changed)
  | .error fault => (.error (.file fault), tree)

/-- A change succeeds with the tree that it makes. -/
theorem change_eq_ok {action : FileTree → Except FileFault FileTree} {tree after : FileTree} :
    change action tree = (.ok (), after) ↔ action tree = .ok after := by
  unfold change
  cases action tree with
  | ok changed => simp
  | error fault => simp

/-- Directories that were made stay even if the last one is refused. -/
def makeOutput (directory : Path) : Effect Unit := fun tree =>
  match tree.ensureDirectories directory with
  | (made, none) => (.ok (), made)
  | (made, some fault) => (.error (.file fault), made)

end Effect

/-- A document is written, and an interface without one loses the document of an earlier run. -/
def settleDocument (settings : Settings) (directory : Path) (result : InterfaceResult)
    (tree : FileTree) : Except FileFault FileTree :=
  match result.document? with
  | some document =>
    tree.write (documentPath directory result.interface) (documentBytes settings document.json)
  | none => tree.remove (documentPath directory result.interface)

def settle (settings : Settings) (directory : Path) : Decision → Effect InterfaceResult
  | .outside path root => fun tree => (.error (.outside path root), tree)
  | .decided result _ =>
    (Effect.change (settleDocument settings directory result)).andThen fun _ tree =>
      (.ok result, tree)

def Plan.report (plan : Plan) (results : List InterfaceResult) : Report :=
  ⟨plan.outputDirectory, results, plan.skipped, plan.types⟩

/-- A plan is carried out in the output directory, and the types are written last. -/
def Plan.settle (plan : Plan) (settings : Settings) : Effect Report :=
  (Effect.makeOutput plan.outputDirectory).andThen fun _ =>
    (Effect.forEach (Project.settle settings plan.outputDirectory) plan.decisions).andThen
      fun results =>
        (Effect.change fun tree =>
            tree.write (typesPath plan.outputDirectory)
              (documentBytes settings plan.types.json)).andThen
          fun _ tree => (.ok (plan.report results), tree)

/-- A decided result is settled by writing or removing its document. -/
theorem settle_eq_ok {settings : Settings} {directory : Path} {result other : InterfaceResult}
    {events : List Event} {tree after : FileTree} :
    settle settings directory (.decided result events) tree = (.ok other, after) ↔
      result = other ∧ settleDocument settings directory result tree = .ok after := by
  simp only [settle, Effect.andThen_eq_ok, Prod.mk.injEq, Except.ok.injEq]
  constructor
  · rintro ⟨_, middle, settled, rfl, rfl⟩
    exact ⟨rfl, Effect.change_eq_ok.mp settled⟩
  · rintro ⟨rfl, settled⟩
    exact ⟨(), after, Effect.change_eq_ok.mpr settled, rfl, rfl⟩

/-- A plan that is carried out makes the output directory, settles its decisions and writes the
types. -/
theorem Plan.settle_eq_ok {plan : Plan} {settings : Settings} {report : Report}
    {tree after : FileTree} :
    plan.settle settings tree = (.ok report, after) ↔
      ∃ made results left, Effect.makeOutput plan.outputDirectory tree = (.ok (), made) ∧
        Effect.forEach (Project.settle settings plan.outputDirectory) plan.decisions made =
          (.ok results, left) ∧
        left.write (typesPath plan.outputDirectory) (documentBytes settings plan.types.json) =
          .ok after ∧
        report = plan.report results := by
  simp only [Plan.settle, Effect.andThen_eq_ok, Prod.mk.injEq, Except.ok.injEq]
  constructor
  · rintro ⟨_, made, output, results, left, settled, _, final, written, rfl, rfl⟩
    have changed := Effect.change_eq_ok.mp written
    exact ⟨made, results, left, output, settled, changed, rfl⟩
  · rintro ⟨made, results, left, output, settled, written, rfl⟩
    refine ⟨(), made, output, results, left, settled, (), after, ?_, rfl, rfl⟩
    exact Effect.change_eq_ok.mpr written

/-- What a run makes of a tree. -/
def generated (parse : String → Script.Tree) (settings : Settings) (root : Path) :
    Effect Report := fun tree =>
  match plan parse settings root tree with
  | .error fault => (.error fault, tree)
  | .ok plan => plan.settle settings tree

/-! ### Actions -/

/-- An action has an effect when the events in its state do not matter. -/
def HasEffect (action : Running Value) (effect : Effect Value) : Prop :=
  ∀ state, ((action.run state).1, (action.run state).2.tree) = effect state.tree

namespace HasEffect

theorem pure (value : Value) :
    HasEffect (Pure.pure value : Running Value) fun tree => (.ok value, tree) := fun _ => rfl

theorem throw (fault : RunFault) :
    HasEffect (MonadExcept.throw fault : Running Value) fun tree => (.error fault, tree) :=
  fun _ => rfl

/-- Actions in a row have the effects in a row. -/
theorem bind {action : Running First} {next : First → Running Second} {effect : Effect First}
    {nextEffect : First → Effect Second} (acts : HasEffect action effect)
    (nextActs : ∀ value, HasEffect (next value) (nextEffect value)) :
    HasEffect (action >>= next) (effect.andThen nextEffect) := by
  intro state
  have first := acts state
  rw [run_bind, Effect.andThen, ← first]
  obtain ⟨answer, left⟩ := action.run state
  cases answer with
  | ok value => exact nextActs value left
  | error fault => rfl

/-- An action without an effect of its own may stand in front. -/
theorem after {action : Running First} {next : First → Running Second} {value : First}
    {effect : Effect Second} (idle : HasEffect action fun tree => (.ok value, tree))
    (acts : HasEffect (next value) effect) : HasEffect (action >>= next) effect := by
  intro state
  have first := idle state
  rw [run_bind]
  cases ran : action.run state with
  | mk answer left =>
    rw [ran] at first
    obtain ⟨rfl, same⟩ := Prod.mk.inj first
    rw [← same]
    exact acts left

theorem log (event : Event) : HasEffect (log event) fun tree => (.ok (), tree) := fun _ => rfl

/-- Logging several events has no effect on the tree. -/
theorem forM_log (events : List Event) :
    HasEffect (events.forM Project.log) fun tree => (.ok (), tree) := by
  induction events with
  | nil => exact pure ()
  | cons event events inductionHypothesis => exact after (log event) inductionHypothesis

/-- Actions on several items have their effects one after the other. -/
theorem mapM {action : First → Running Second} {effect : First → Effect Second}
    (acts : ∀ item, HasEffect (action item) (effect item)) (items : List First) :
    HasEffect (items.mapM action) (Effect.forEach effect items) := by
  induction items with
  | nil => exact pure []
  | cons item items inductionHypothesis =>
    rw [List.mapM_cons]
    exact bind (acts item) fun value => bind inductionHypothesis fun values => pure _

/-- A change of the tree has just that effect. -/
theorem change (action : FileTree → Except FileFault FileTree) :
    HasEffect (Project.change action) (Effect.change action) := by
  intro state
  unfold Project.change Effect.change
  rw [run_bind, run_get]
  dsimp only
  cases action state.tree <;> rfl

/-- Making the output directory has just that effect. -/
theorem makeOutput (directory : Path) :
    HasEffect (Project.makeOutput directory) (Effect.makeOutput directory) := by
  intro state
  unfold Project.makeOutput Effect.makeOutput
  rw [run_bind, run_get]
  dsimp only
  cases state.tree.ensureDirectories directory with
  | mk made fault => cases fault <;> rfl

/-- A decision that is carried out has the effect of settling it. -/
theorem carryOut (settings : Settings) (directory : Path) (decision : Decision) :
    HasEffect (carryOut settings directory decision) (settle settings directory decision) := by
  cases decision with
  | outside path root => exact throw _
  | decided result events =>
    refine after (forM_log events) ?_
    simp only [settle]
    unfold settleDocument
    cases result.document? with
    | some document => exact bind (change _) fun _ => after (log _) (pure result)
    | none => exact bind (change _) fun _ => after (log _) (pure result)

/-- A run acts on its tree by its effect. -/
theorem generateWith (parse : String → Script.Tree) (settings : Settings) (root : Path) :
    HasEffect (generateWith parse settings root) (generated parse settings root) := by
  intro state
  unfold Project.generateWith generated
  rw [run_bind, run_get]
  dsimp only
  cases plan parse settings root state.tree with
  | error fault => rfl
  | ok plan =>
    suffices settled : HasEffect (plan.events.forM Project.log >>= fun _ => _)
        (plan.settle settings) from settled state
    refine after (forM_log plan.events) (bind (makeOutput plan.outputDirectory) fun _ => ?_)
    refine bind (mapM (carryOut settings plan.outputDirectory) plan.decisions) fun results => ?_
    exact bind (change _) fun _ => after (log _) (pure (plan.report results))

end HasEffect

end InterfaceAudit.Project
