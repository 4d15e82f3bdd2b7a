import InterfaceAudit.Project.FileTree

/-!
Changes of a tree of files.
A document never takes the place of a directory, so it neither opens nor closes the way to another
one.
-/

namespace InterfaceAudit.FileTree

variable {tree first second after : FileTree} {path : Path} {location other : Location}

theorem get?_root (tree : FileTree) : tree.get? [] = some .directory := rfl

/-- Every entry but the root is listed. -/
theorem get?_of_ne_root (nested : location ≠ []) :
    tree.get? location =
      (tree.entries.find? fun entry => entry.1 = location).map Prod.snd := by
  unfold get?
  rw [if_neg nested]

section Entries

variable {entries : List (Location × Entry)}

/-- An entry takes the place of the one that stands there. -/
theorem find?_replaced (present : (entries.any fun old => old.1 = location) = true) (entry : Entry)
    (other : Location) :
    ((entries.map fun old => if old.1 = location then (location, entry) else old).find?
        fun old => old.1 = other).map Prod.snd =
      if other = location then some entry
      else (entries.find? fun old => old.1 = other).map Prod.snd := by
  have samePlace : (fun old : Location × Entry => decide (old.1 = other)) ∘
      (fun old => if old.1 = location then (location, entry) else old) =
      fun old => decide (old.1 = other) := by
    funext old
    by_cases here : old.1 = location
    · simp only [Function.comp_apply, here, if_true]
    · simp only [Function.comp_apply, here, if_false]
  rw [List.find?_map, samePlace, Option.map_map]
  cases found : entries.find? fun old => decide (old.1 = other) with
  | none =>
    have elsewhere : other ≠ location := by
      rintro rfl
      obtain ⟨old, member, same⟩ := List.any_eq_true.mp present
      exact List.find?_eq_none.mp found old member same
    rw [if_neg elsewhere]
    rfl
  | some old =>
    have place : old.1 = other := by simpa using List.find?_some found
    by_cases here : other = location
    · simp only [Option.map_some, Function.comp_apply, place, here, if_true]
    · simp only [Option.map_some, Function.comp_apply, place, here, if_false]

/-- An entry stands behind all others where none has its place. -/
theorem find?_appended (absent : ¬(entries.any fun old => old.1 = location) = true) (entry : Entry)
    (other : Location) :
    ((entries ++ [(location, entry)]).find? fun old => old.1 = other).map Prod.snd =
      if other = location then some entry
      else (entries.find? fun old => old.1 = other).map Prod.snd := by
  rw [List.find?_append]
  by_cases here : other = location
  · subst here
    have missing : entries.find? (fun old => decide (old.1 = other)) = none := by
      rw [List.find?_eq_none]
      intro old member same
      exact absent (List.any_eq_true.mpr ⟨old, member, same⟩)
    simp only [missing, Option.none_or, List.find?_singleton, decide_true, if_true,
      Option.map_some]
  · have elsewhere : ¬location = other := fun same => here same.symm
    simp only [List.find?_singleton, elsewhere, decide_false, Bool.false_eq_true, if_false,
      Option.or_none, here]

end Entries

/-- The entry that was set is found, and all others are as before. -/
theorem get?_set (nested : location ≠ []) (entry : Entry) (other : Location) :
    (tree.set location entry).get? other =
      if other = location then some entry else tree.get? other := by
  by_cases root : other = []
  · subst root
    rw [if_neg nested.symm]
    rfl
  · rw [get?_of_ne_root root, get?_of_ne_root root]
    unfold set
    split
    · next present => exact find?_replaced present entry other
    · next absent => exact find?_appended absent entry other

/-- Erasing an entry changes no other one. -/
theorem get?_erase (nested : location ≠ []) (other : Location) :
    (tree.erase location).get? other = if other = location then none else tree.get? other := by
  by_cases root : other = []
  · subst root
    rw [if_neg nested.symm]
    rfl
  · rw [get?_of_ne_root root, get?_of_ne_root root]
    unfold erase
    simp only [List.find?_filter]
    by_cases here : other = location
    · subst here
      have missing : (tree.entries.find? fun old =>
          decide (decide (old.1 ≠ other) = true ∧ decide (old.1 = other) = true)) = none := by
        rw [List.find?_eq_none]
        intro old _ both
        simp only [ne_eq, decide_eq_true_eq] at both
        exact both.1 both.2
      rw [missing, if_pos rfl]
      rfl
    · rw [if_neg here]
      congr 2
      funext old
      by_cases same : old.1 = other
      · simp only [same, ne_eq, here, not_false_eq_true, decide_true, and_self]
      · simp only [same, decide_false, Bool.false_eq_true, and_false]

/-! ### Ways through directories -/

/-- Both trees have the same directories. -/
def SameDirectories (first second : FileTree) : Prop :=
  ∀ location, first.get? location = some .directory ↔ second.get? location = some .directory

theorem SameDirectories.refl (tree : FileTree) : tree.SameDirectories tree := fun _ => Iff.rfl

theorem SameDirectories.symm (same : first.SameDirectories second) :
    second.SameDirectories first := fun location => (same location).symm

theorem SameDirectories.trans {third : FileTree} (same : first.SameDirectories second)
    (next : second.SameDirectories third) : first.SameDirectories third :=
  fun location => (same location).trans (next location)

/-- A step of the way is taken from a directory, to its parent or to an entry. -/
theorem locate_cons_eq_ok {name : String} {names : List String} {target : Location} :
    tree.locate path location (name :: names) = .ok target ↔
      tree.get? location = some .directory ∧
        tree.locate path (if name == ".." then location.dropLast else location ++ [name]) names =
          .ok target := by
  rw [locate]
  constructor
  · intro found
    split at found
    · next isDirectory => exact ⟨isDirectory, found⟩
    · contradiction
    · contradiction
  · rintro ⟨isDirectory, found⟩
    rw [isDirectory]
    exact found

/-- A way stays open as long as no directory on it is lost; the path only words a fault. -/
theorem locate_of_directories (kept : ∀ location, first.get? location = some .directory →
      second.get? location = some .directory) {otherPath : Path} {names : List String}
    {target : Location} (found : first.locate path location names = .ok target) :
    second.locate otherPath location names = .ok target := by
  induction names generalizing location with
  | nil => exact found
  | cons name names inductionHypothesis =>
    rw [locate_cons_eq_ok] at found ⊢
    exact ⟨kept location found.1, inductionHypothesis found.2⟩

/-- Paths lead through directories only, so the same ones give the same places. -/
theorem resolve_congr (same : first.SameDirectories second) :
    first.resolve path = .ok location ↔ second.resolve path = .ok location :=
  ⟨locate_of_directories fun location => (same location).mp,
    locate_of_directories fun location => (same location).mpr⟩

/-- The place of a path lies in the place of the path above it. -/
theorem locate_concat {names : List String} {name : String} {target : Location}
    (plain : name ≠ "..") :
    tree.locate path location (names ++ [name]) = .ok target ↔
      ∃ parent, tree.locate path location names = .ok parent ∧
        tree.get? parent = some .directory ∧ target = parent ++ [name] := by
  induction names generalizing location with
  | nil =>
    have notUp : (name == "..") = false := beq_false_of_ne plain
    rw [List.nil_append, locate_cons_eq_ok]
    simp only [locate, notUp, Bool.false_eq_true, if_false, Except.ok.injEq]
    constructor
    · rintro ⟨isDirectory, rfl⟩
      exact ⟨location, rfl, isDirectory, rfl⟩
    · rintro ⟨parent, rfl, isDirectory, rfl⟩
      exact ⟨isDirectory, rfl⟩
  | cons first names inductionHypothesis =>
    rw [List.cons_append, locate_cons_eq_ok, inductionHypothesis]
    constructor
    · rintro ⟨isDirectory, parent, found, rest⟩
      exact ⟨parent, locate_cons_eq_ok.mpr ⟨isDirectory, found⟩, rest⟩
    · rintro ⟨parent, found, rest⟩
      obtain ⟨isDirectory, found⟩ := locate_cons_eq_ok.mp found
      exact ⟨isDirectory, parent, found, rest⟩

/-! ### Writing and removing -/

/-- The way to the path is open, and no directory stands at its end. -/
def Writable (tree : FileTree) (path : Path) : Prop :=
  ∃ location, tree.resolve path = .ok location ∧ tree.get? location ≠ some .directory

instance (tree : FileTree) (path : Path) : Decidable (tree.Writable path) :=
  match resolved : tree.resolve path with
  | .ok location =>
    decidable_of_iff (tree.get? location ≠ some .directory) <| by
      unfold Writable
      simp only [resolved, Except.ok.injEq, exists_eq_left']
  | .error fault => .isFalse <| by
      rintro ⟨location, found, -⟩
      rw [resolved] at found
      contradiction

/-- Whether a file can be written depends on the directories alone. -/
theorem Writable.congr (same : first.SameDirectories second) :
    first.Writable path ↔ second.Writable path := by
  unfold Writable
  simp only [resolve_congr same, ne_eq, same _]

/-- The root is a directory. -/
theorem ne_root_of_get? (notDirectory : tree.get? location ≠ some .directory) :
    location ≠ [] := by
  rintro rfl
  exact notDirectory (get?_root tree)

/-- What a change does to a tree: one entry that is no directory is set or erased. -/
structure Changes (tree : FileTree) (location : Location) (entry : Option Entry)
    (after : FileTree) : Prop where
  before : tree.get? location ≠ some .directory
  here : after.get? location = entry
  elsewhere : ∀ other, other ≠ location → after.get? other = tree.get? other
  noDirectory : entry ≠ some .directory

/-- A change of a file moves no directory. -/
theorem Changes.sameDirectories {entry : Option Entry}
    (changes : tree.Changes location entry after) : tree.SameDirectories after := by
  intro other
  by_cases here : other = location
  · subst here
    rw [changes.here]
    exact ⟨fun found => absurd found changes.before, fun found => absurd found changes.noDirectory⟩
  · rw [changes.elsewhere other here]

/-- A file is written at the place that its path leads to. -/
theorem write_of_resolved (resolved : tree.resolve path = .ok location) (content : List UInt8) :
    tree.write path content =
      match tree.get? location with
      | some .directory => .error (.isDirectory path)
      | _ => .ok (tree.set location (.file content)) := by
  unfold write
  rw [resolved]
  rfl

/-- A document that is written stands at the end of its way. -/
theorem write_changes {content : List UInt8} (resolved : tree.resolve path = .ok location)
    (written : tree.write path content = .ok after) :
    tree.Changes location (some (.file content)) after := by
  rw [write_of_resolved resolved] at written
  split at written
  · contradiction
  · next notDirectory =>
    obtain rfl := Except.ok.inj written
    have nested := ne_root_of_get? notDirectory
    refine ⟨notDirectory, ?_, ?_, nofun⟩
    · rw [get?_set nested, if_pos rfl]
    · intro other different
      rw [get?_set nested, if_neg different]

/-- Removing a file changes its place and nothing else. -/
theorem remove_changes (resolved : tree.resolve path = .ok location)
    (removed : tree.remove path = .ok after) : tree.Changes location none after := by
  unfold remove at removed
  simp only [resolved] at removed
  split at removed
  · contradiction
  · next content isFile =>
    obtain rfl := Except.ok.inj removed
    have notDirectory : tree.get? location ≠ some .directory := by
      rw [isFile]
      nofun
    have nested := ne_root_of_get? notDirectory
    refine ⟨notDirectory, ?_, ?_, nofun⟩
    · rw [get?_erase nested, if_pos rfl]
    · intro other different
      rw [get?_erase nested, if_neg different]
  · next missing =>
    obtain rfl := Except.ok.inj removed
    refine ⟨?_, missing, fun other _ => rfl, nofun⟩
    rw [missing]
    nofun

/-- A writable file can be written, and the directories stay. -/
theorem Writable.write (writable : tree.Writable path) (content : List UInt8) :
    ∃ after, tree.write path content = .ok after ∧ tree.SameDirectories after := by
  obtain ⟨location, resolved, notDirectory⟩ := writable
  have written : tree.write path content = .ok (tree.set location (.file content)) := by
    rw [write_of_resolved resolved]
    split
    · next isDirectory => exact absurd isDirectory notDirectory
    · rfl
  exact ⟨_, written, (write_changes resolved written).sameDirectories⟩

/-- A writable file can be removed, and the directories stay. -/
theorem Writable.remove (writable : tree.Writable path) :
    ∃ after, tree.remove path = .ok after ∧ tree.SameDirectories after := by
  obtain ⟨location, resolved, notDirectory⟩ := writable
  have removed : ∃ after, tree.remove path = .ok after := by
    unfold FileTree.remove
    simp only [resolved]
    split
    · next isDirectory => exact absurd isDirectory notDirectory
    · exact ⟨_, rfl⟩
    · exact ⟨_, rfl⟩
  obtain ⟨after, removed⟩ := removed
  exact ⟨after, removed, (remove_changes resolved removed).sameDirectories⟩

/-! ### Making directories -/

/-- The way to the path is open, and a directory stands at its end. -/
def Stands (tree : FileTree) (path : Path) : Prop :=
  ∃ location, tree.resolve path = .ok location ∧ tree.get? location = some .directory

/-- Whether a directory stands depends on the directories alone. -/
theorem Stands.congr (same : first.SameDirectories second) :
    first.Stands path ↔ second.Stands path := by
  unfold Stands
  simp only [resolve_congr same, same _]

/-- A directory is made where nothing stands. -/
theorem makeDirectory_of_resolved (resolved : tree.resolve path = .ok location) :
    tree.makeDirectory path =
      match tree.get? location with
      | some _ => .error (.exists path)
      | none => .ok (tree.set location .directory) := by
  unfold makeDirectory
  rw [resolved]
  rfl

/-- A directory that is made stands. -/
theorem makeDirectory_stands (made : tree.makeDirectory path = .ok after) : after.Stands path := by
  cases resolved : tree.resolve path with
  | error fault =>
    unfold makeDirectory at made
    rw [resolved] at made
    contradiction
  | ok location =>
    rw [makeDirectory_of_resolved resolved] at made
    split at made
    · contradiction
    · next missing =>
      obtain rfl := Except.ok.inj made
      have nested : location ≠ [] := by
        rintro rfl
        contradiction
      refine ⟨location, locate_of_directories ?_ resolved, ?_⟩
      · intro other isDirectory
        rw [get?_set nested]
        split
        · rfl
        · exact isDirectory
      · rw [get?_set nested, if_pos rfl]

/-- The test for directories finds exactly those that stand. -/
theorem isDirectory_iff_stands : tree.isDirectory path = true ↔ tree.Stands path := by
  unfold isDirectory entry? Stands
  cases tree.resolve path with
  | error fault => simp
  | ok location =>
    simp only [Except.ok.injEq, exists_eq_left']
    cases tree.get? location with
    | none => simp
    | some entry => cases entry <;> simp

/-- A directory that is ensured stands, made or found. -/
theorem ensureDirectory_stands (ensured : tree.ensureDirectory path = .ok after) :
    after.Stands path := by
  unfold ensureDirectory at ensured
  split at ensured
  · next made found =>
    obtain rfl := Except.ok.inj ensured
    exact makeDirectory_stands found
  · split at ensured
    · next isDirectory =>
      obtain rfl := Except.ok.inj ensured
      exact isDirectory_iff_stands.mp isDirectory
    · contradiction

/-- Directories that are made without a fault stand. -/
theorem makeDirectories_stands {anchor : Anchor} {above : List String}
    (made : tree.makeDirectories anchor above = (after, none)) :
    after.Stands ⟨anchor, above.reverse⟩ := by
  cases above with
  | nil =>
    obtain ⟨rfl, -⟩ := Prod.mk.inj made
    exact ⟨[], rfl, get?_root tree⟩
  | cons name above =>
    rw [makeDirectories] at made
    split at made
    · next ensured =>
      obtain ⟨rfl, -⟩ := Prod.mk.inj made
      exact ensureDirectory_stands ensured
    · split at made
      · exact absurd (Prod.mk.inj made).2 nofun
      · split at made
        · next ensured =>
          obtain ⟨rfl, -⟩ := Prod.mk.inj made
          exact ensureDirectory_stands ensured
        · exact absurd (Prod.mk.inj made).2 nofun
    · exact absurd (Prod.mk.inj made).2 nofun

/-- A whole path of directories stands once it is ensured. -/
theorem ensureDirectories_stands (made : tree.ensureDirectories path = (after, none)) :
    after.Stands path := by
  have stands := makeDirectories_stands made
  rwa [List.reverse_reverse] at stands

/-- A place is as before, or a new directory stands where nothing stood. -/
def KeepsAt (first second : FileTree) (location : Location) : Prop :=
  second.get? location = first.get? location ∨
    first.get? location = none ∧ second.get? location = some .directory

/-- The second tree is like the first but for new directories. -/
def Grows (first second : FileTree) : Prop := ∀ location, first.KeepsAt second location

theorem Grows.refl (tree : FileTree) : tree.Grows tree := fun _ => .inl rfl

/-- Growing twice is growing. -/
theorem Grows.trans {third : FileTree} (grows : first.Grows second) (next : second.Grows third) :
    first.Grows third := by
  intro location
  rcases next location with same | ⟨missing, made⟩
  · rw [KeepsAt, same]
    exact grows location
  · rcases grows location with same | ⟨-, earlier⟩
    · exact .inr ⟨same ▸ missing, made⟩
    · rw [earlier] at missing
      contradiction

/-- Making a directory changes nothing that is there. -/
theorem makeDirectory_grows (made : tree.makeDirectory path = .ok after) : tree.Grows after := by
  cases resolved : tree.resolve path with
  | error fault =>
    unfold makeDirectory at made
    rw [resolved] at made
    contradiction
  | ok location =>
    rw [makeDirectory_of_resolved resolved] at made
    split at made
    · contradiction
    · next missing =>
      obtain rfl := Except.ok.inj made
      have nested : location ≠ [] := by
        rintro rfl
        contradiction
      intro other
      rw [KeepsAt, get?_set nested]
      split
      · next here => exact .inr ⟨here ▸ missing, rfl⟩
      · exact .inl rfl

/-- Ensuring a directory changes nothing that is there. -/
theorem ensureDirectory_grows (ensured : tree.ensureDirectory path = .ok after) :
    tree.Grows after := by
  unfold ensureDirectory at ensured
  split at ensured
  · next made found =>
    obtain rfl := Except.ok.inj ensured
    exact makeDirectory_grows found
  · split at ensured
    · obtain rfl := Except.ok.inj ensured
      exact .refl tree
    · contradiction

/-- Making directories changes nothing else, even if it stops at a fault. -/
theorem makeDirectories_grows {anchor : Anchor} {above : List String} {fault : Option FileFault}
    (made : tree.makeDirectories anchor above = (after, fault)) : tree.Grows after := by
  induction above generalizing after fault with
  | nil =>
    obtain ⟨rfl, -⟩ := Prod.mk.inj made
    exact .refl tree
  | cons name above inductionHypothesis =>
    rw [makeDirectories] at made
    split at made
    · next ensured =>
      obtain ⟨rfl, -⟩ := Prod.mk.inj made
      exact ensureDirectory_grows ensured
    · split at made
      · next earlier =>
        obtain ⟨rfl, -⟩ := Prod.mk.inj made
        exact inductionHypothesis earlier
      · next earlier =>
        split at made
        · next ensured =>
          obtain ⟨rfl, -⟩ := Prod.mk.inj made
          exact (inductionHypothesis earlier).trans (ensureDirectory_grows ensured)
        · obtain ⟨rfl, -⟩ := Prod.mk.inj made
          exact inductionHypothesis earlier
    · obtain ⟨rfl, -⟩ := Prod.mk.inj made
      exact .refl tree

/-- A directory that stands need not be made. -/
theorem ensureDirectories_of_stands (stands : tree.Stands path) :
    tree.ensureDirectories path = (tree, none) := by
  obtain ⟨location, resolved, isDirectory⟩ := stands
  obtain ⟨anchor, names⟩ := path
  unfold ensureDirectories
  cases reversed : names.reverse with
  | nil => rfl
  | cons name above =>
    have samePath : (⟨anchor, (name :: above).reverse⟩ : Path) = ⟨anchor, names⟩ := by
      rw [← reversed, List.reverse_reverse]
    have made : tree.makeDirectory ⟨anchor, names⟩ = .error (.exists ⟨anchor, names⟩) := by
      rw [makeDirectory_of_resolved resolved, isDirectory]
    have already : tree.isDirectory ⟨anchor, names⟩ = true :=
      isDirectory_iff_stands.mpr ⟨location, resolved, isDirectory⟩
    simp only [makeDirectories, samePath, ensureDirectory, made, already, if_true]

/-! ### Trees with the same entries -/

/-- Both trees hold the same at every place. -/
def SameEntries (first second : FileTree) : Prop :=
  ∀ location, first.get? location = second.get? location

/-- Paths lead to the same places in trees with the same entries. -/
theorem SameEntries.resolve_eq (same : first.SameEntries second) (path : Path) :
    first.resolve path = second.resolve path := by
  have located (names : List String) (location : Location) :
      first.locate path location names = second.locate path location names := by
    induction names generalizing location with
    | nil => rfl
    | cons name names inductionHypothesis =>
      rw [locate, locate, same location]
      cases second.get? location with
      | none => rfl
      | some entry =>
        cases entry with
        | file content => rfl
        | directory => exact inductionHypothesis _
  exact located _ _

/-- Trees with the same entries have the same directories. -/
theorem SameEntries.isDirectory_eq (same : first.SameEntries second) (path : Path) :
    first.isDirectory path = second.isDirectory path := by
  unfold isDirectory entry?
  rw [same.resolve_eq path]
  cases second.resolve path with
  | error fault => rfl
  | ok location => simp only [same location]

/-- Two changes are refused alike, or they leave the same entries. -/
def SameChange (first second : Except FileFault FileTree) : Prop :=
  (∃ firstTree secondTree, first = .ok firstTree ∧ second = .ok secondTree ∧
      firstTree.SameEntries secondTree) ∨
    ∃ fault, first = .error fault ∧ second = .error fault

/-- Making a directory keeps the entries of both trees the same. -/
theorem SameEntries.makeDirectory (same : first.SameEntries second) (path : Path) :
    SameChange (first.makeDirectory path) (second.makeDirectory path) := by
  cases resolved : second.resolve path with
  | error fault =>
    unfold FileTree.makeDirectory
    rw [same.resolve_eq path, resolved]
    exact .inr ⟨fault, rfl, rfl⟩
  | ok location =>
    rw [makeDirectory_of_resolved (same.resolve_eq path ▸ resolved),
      makeDirectory_of_resolved resolved, same location]
    cases missing : second.get? location with
    | some entry => exact .inr ⟨_, rfl, rfl⟩
    | none =>
      have nested : location ≠ [] := by
        rintro rfl
        contradiction
      refine .inl ⟨_, _, rfl, rfl, fun other => ?_⟩
      rw [get?_set nested, get?_set nested, same other]

/-- Ensuring a directory keeps the entries of both trees the same. -/
theorem SameEntries.ensureDirectory (same : first.SameEntries second) (path : Path) :
    SameChange (first.ensureDirectory path) (second.ensureDirectory path) := by
  unfold FileTree.ensureDirectory
  rw [same.isDirectory_eq path]
  rcases same.makeDirectory path with
    ⟨firstTree, secondTree, firstMade, secondMade, alike⟩ | ⟨fault, firstFailed, secondFailed⟩
  · rw [firstMade, secondMade]
    exact .inl ⟨firstTree, secondTree, rfl, rfl, alike⟩
  · rw [firstFailed, secondFailed]
    dsimp only
    split
    · exact .inl ⟨first, second, rfl, rfl, same⟩
    · exact .inr ⟨fault, rfl, rfl⟩

/-- In trees with the same entries the same directories are made, with the same fault. -/
theorem SameEntries.makeDirectories (same : first.SameEntries second) (anchor : Anchor)
    (above : List String) :
    (first.makeDirectories anchor above).1.SameEntries (second.makeDirectories anchor above).1 ∧
      (first.makeDirectories anchor above).2 = (second.makeDirectories anchor above).2 := by
  induction above with
  | nil => exact ⟨same, rfl⟩
  | cons name above inductionHypothesis =>
    simp only [FileTree.makeDirectories]
    rcases same.ensureDirectory ⟨anchor, (name :: above).reverse⟩ with
      ⟨firstTree, secondTree, firstMade, secondMade, alike⟩ | ⟨fault, firstFailed, secondFailed⟩
    · rw [firstMade, secondMade]
      exact ⟨alike, rfl⟩
    · rw [firstFailed, secondFailed]
      cases fault with
      | «exists» path | notDirectory path | isDirectory path => exact ⟨same, rfl⟩
      | notFound path =>
        obtain ⟨aboveAlike, aboveFault⟩ := inductionHypothesis
        dsimp only
        cases firstAbove : first.makeDirectories anchor above with
        | mk firstTree firstFault =>
          cases secondAbove : second.makeDirectories anchor above with
          | mk secondTree secondFault =>
            rw [firstAbove, secondAbove] at aboveAlike aboveFault
            obtain rfl : firstFault = secondFault := aboveFault
            cases firstFault with
            | some fault => exact ⟨aboveAlike, rfl⟩
            | none =>
              dsimp only at aboveAlike ⊢
              rcases aboveAlike.ensureDirectory ⟨anchor, (name :: above).reverse⟩ with
                ⟨firstMade, secondMade, firstSame, secondSame, alike⟩ |
                  ⟨fault, firstSame, secondSame⟩
              · rw [firstSame, secondSame]
                exact ⟨alike, rfl⟩
              · rw [firstSame, secondSame]
                exact ⟨aboveAlike, rfl⟩

end InterfaceAudit.FileTree
