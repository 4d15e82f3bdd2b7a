import InterfaceAudit.Proofs.Idl.Name
import InterfaceAudit.Proofs.Project.Containment

/-!
Documents that a run leaves.
Documents of different interfaces have different places, so the place of an interface holds what
the last result of that interface says.
-/

namespace InterfaceAudit.Project

open FileTree (Stands SameDirectories Changes)
open Idl (IsName)

variable {settings : Settings} {root directory : Path} {tree after : FileTree}

/-! ### Places of documents -/

/-- Without the mark a text is one piece. -/
theorem splitOn_of_not_mem {mark : Char} {text : List Char} (missing : mark ∉ text) :
    Text.splitOn mark text = [text] := by
  induction text with
  | nil => rfl
  | cons c rest inductionHypothesis =>
    rw [List.mem_cons, not_or] at missing
    have different : (c == mark) = false := beq_false_of_ne fun same => missing.1 same.symm
    rw [Text.splitOn, inductionHypothesis missing.2]
    simp only [different, Bool.false_eq_true, if_false]

/-- Without a slash a path has no anchor. -/
theorem anchorOf_of_not_mem {text : List Char} (missing : '/' ∉ text) :
    Path.anchorOf text = .none := by
  cases text with
  | nil => rfl
  | cons c rest =>
    have different : c ≠ '/' := fun same => missing (same ▸ List.mem_cons_self ..)
    unfold Path.anchorOf
    split
    · next same => exact absurd (List.cons.inj same).1 different
    · next same => exact absurd (List.cons.inj same).1 different
    · next same => exact absurd (List.cons.inj same).1 different
    · rfl

/-- A text without slashes is a name of a path, unless it is empty or a dot. -/
theorem ofString_of_not_mem {text : String} (missing : '/' ∉ text.toList)
    (notEmpty : text.toList ≠ []) (notDot : text.toList ≠ ['.']) :
    Path.ofString text = ⟨.none, [text]⟩ := by
  have kept : (text.toList != [] && text.toList != ['.']) = true := by
    simp only [bne_iff_ne.mpr notEmpty, bne_iff_ne.mpr notDot, Bool.and_self]
  simp only [Path.ofString, anchorOf_of_not_mem missing, splitOn_of_not_mem missing,
    List.filter_cons, kept, if_true, List.filter_nil, List.map_cons, List.map_nil,
    String.ofList_toList]

/-- The document of a name is a child of the output directory. -/
theorem documentPath_of_isName {name : String} (isName : IsName name) (directory : Path) :
    documentPath directory name = ⟨directory.anchor, directory.names ++ [name ++ ".json"]⟩ := by
  have text : (name ++ ".json").toList = name.toList ++ ['.', 'j', 's', 'o', 'n'] :=
    String.toList_append
  have size : (name ++ ".json").toList.length = name.toList.length + 5 := by
    rw [text, List.length_append]
    rfl
  have missing : '/' ∉ (name ++ ".json").toList := by
    rw [text, List.mem_append, not_or]
    exact ⟨fun member => absurd (isName _ member) (by decide), by decide⟩
  have plain : Path.ofString (name ++ ".json") = ⟨.none, [name ++ ".json"]⟩ := by
    refine ofString_of_not_mem missing ?_ ?_
    · intro same
      rw [same, List.length_nil] at size
      omega
    · intro same
      rw [same, List.length_singleton] at size
      omega
  rw [documentPath, Path.child, plain]
  rfl

/-- The file of an interface is not the parent directory. -/
theorem name_ne_dots (name : String) : name ++ ".json" ≠ ".." := by
  intro same
  have size := congrArg (fun text => text.toList.length) same
  simp only [String.toList_append, List.length_append] at size
  change name.toList.length + 5 = 2 at size
  omega

/-- The place of a document under the place of the output directory. -/
def documentPlace (base : Location) (name : String) : Location := base ++ [name ++ ".json"]

/-- Different interfaces have different places. -/
theorem documentPlace_injective {base : Location} {first second : String}
    (same : documentPlace base first = documentPlace base second) : first = second := by
  have names := List.append_cancel_left same
  have texts := congrArg String.toList (List.cons.inj names).1
  rw [String.toList_append, String.toList_append] at texts
  exact String.ext (List.append_cancel_right texts)

/-- The output directory stands at a place. -/
def StandsAt (tree : FileTree) (directory : Path) (base : Location) : Prop :=
  tree.resolve directory = .ok base ∧ tree.get? base = some .directory

/-- Where a directory stands depends on the directories alone. -/
theorem StandsAt.congr {first second : FileTree} {base : Location}
    (same : first.SameDirectories second) (stands : StandsAt first directory base) :
    StandsAt second directory base :=
  ⟨(FileTree.resolve_congr same).mp stands.1, (same base).mp stands.2⟩

/-- The path of a document leads into the directory that stands. -/
theorem StandsAt.resolve {base : Location} (stands : StandsAt tree directory base) {name : String}
    (isName : IsName name) :
    tree.resolve (documentPath directory name) = .ok (documentPlace base name) := by
  rw [documentPath_of_isName isName]
  have found : tree.locate (documentPath directory name) [] directory.names = .ok base :=
    FileTree.locate_of_directories (fun _ => id) stands.1
  rw [documentPath_of_isName isName] at found
  exact (FileTree.locate_concat (name_ne_dots name)).mpr ⟨base, found, stands.2, rfl⟩

/-- At the path of a document stands what its place holds. -/
theorem StandsAt.entry?_documentPath {base : Location} (stands : StandsAt tree directory base)
    {name : String} (isName : IsName name) :
    tree.entry? (documentPath directory name) = tree.get? (documentPlace base name) := by
  unfold FileTree.entry?
  rw [stands.resolve isName]

/-! ### Results and their documents -/

/-- What the place of an interface holds after a result. -/
def InterfaceResult.entry? (settings : Settings) (result : InterfaceResult) : Option Entry :=
  result.document?.map fun document => .file (documentBytes settings document.json)

/-- Settling a result changes the place of its interface alone. -/
theorem settle_changes {base : Location} {result : InterfaceResult} {events : List Event}
    (stands : StandsAt tree directory base) (isName : IsName result.interface)
    (ran : settle settings directory (.decided result events) tree = (.ok result, after)) :
    tree.Changes (documentPlace base result.interface) (result.entry? settings) after := by
  obtain ⟨-, settled⟩ := settle_eq_ok.mp ran
  have resolved := stands.resolve isName
  unfold settleDocument at settled
  unfold InterfaceResult.entry?
  cases found : result.document? with
  | some document =>
    rw [found] at settled
    exact FileTree.write_changes resolved settled
  | none =>
    rw [found] at settled
    exact FileTree.remove_changes resolved settled

/-- What a place holds after some results for it; the last one decides. -/
def heldAfter (settings : Settings) (held : Option Entry) (results : List InterfaceResult) :
    Option Entry :=
  results.foldl (fun _ result => result.entry? settings) held

/-- Any result makes what was there before irrelevant. -/
theorem heldAfter_of_ne_nil {results : List InterfaceResult} (some : results ≠ [])
    (first second : Option Entry) :
    heldAfter settings first results = heldAfter settings second results := by
  cases results with
  | nil => exact absurd rfl some
  | cons result results => rfl

/-- The results of an interface decide what its place holds. -/
theorem forEach_entry {base : Location} {decisions : List Decision}
    {results : List InterfaceResult} (stands : StandsAt tree directory base)
    (isName : ∀ result ∈ results, IsName result.interface)
    (ran : Effect.forEach (settle settings directory) decisions tree = (.ok results, after))
    (name : String) :
    StandsAt after directory base ∧
      after.get? (documentPlace base name) =
        heldAfter settings (tree.get? (documentPlace base name))
          (results.filter (·.interface = name)) := by
  induction decisions generalizing tree results with
  | nil =>
    obtain ⟨same, rfl⟩ := Prod.mk.inj ran
    obtain rfl := Except.ok.inj same
    exact ⟨stands, rfl⟩
  | cons decision decisions inductionHypothesis =>
    obtain ⟨result, middle, rest, first, others, rfl⟩ := Effect.forEach_cons_eq_ok.mp ran
    obtain ⟨events, rfl⟩ := settles_of_settle first
    obtain ⟨resultIsName, restIsName⟩ := List.forall_mem_cons.mp isName
    have changes := settle_changes stands resultIsName first
    obtain ⟨standsLeft, holds⟩ := inductionHypothesis
      (stands.congr changes.sameDirectories) restIsName others
    refine ⟨standsLeft, holds.trans ?_⟩
    by_cases here : result.interface = name
    · subst here
      rw [changes.here, List.filter_cons_of_pos (by simp)]
      rfl
    · have elsewhere := changes.elsewhere (documentPlace base name)
        fun same => here (documentPlace_injective same).symm
      rw [elsewhere, List.filter_cons_of_neg (by simpa using here)]

/-- The document of the types has the place of an interface of that name. -/
theorem typesPath_eq (directory : Path) :
    typesPath directory = documentPath directory "types" := rfl

theorem isName_types : IsName "types" := by
  unfold IsName
  exact List.all_eq_true.mp (by decide)

/-- The output directory stands once it is made. -/
theorem standsAt_of_makeOutput
    (made : Effect.makeOutput directory tree = (.ok (), after)) :
    ∃ base, StandsAt after directory base := by
  unfold Effect.makeOutput at made
  split at made
  · next ensured =>
    obtain rfl := (Prod.mk.inj made).2
    exact FileTree.ensureDirectories_stands ensured
  · exact absurd (Prod.mk.inj made).1 nofun

/-- A plan that is carried out leaves the document of an interface as its results say. -/
theorem entry_of_settle {plan : Plan} {report : Report} {name : String}
    (ran : plan.settle settings tree = (.ok report, after))
    (isName : ∀ result ∈ report.results, IsName result.interface) (nameIsName : IsName name)
    (notTypes : name ≠ "types") (some : report.results.filter (·.interface = name) ≠ []) :
    after.entry? (documentPath plan.outputDirectory name) =
      heldAfter settings none (report.results.filter (·.interface = name)) := by
  obtain ⟨made, results, left, output, settled, typesWritten, rfl⟩ := Plan.settle_eq_ok.mp ran
  obtain ⟨base, stands⟩ := standsAt_of_makeOutput output
  obtain ⟨standsLeft, holds⟩ := forEach_entry stands isName settled name
  rw [typesPath_eq] at typesWritten
  have changes := FileTree.write_changes (standsLeft.resolve isName_types) typesWritten
  have standsFinal := standsLeft.congr changes.sameDirectories
  have elsewhere := changes.elsewhere (documentPlace base name)
    fun same => notTypes (documentPlace_injective same)
  rw [standsFinal.entry?_documentPath nameIsName]
  exact (elsewhere.trans holds).trans (heldAfter_of_ne_nil some _ _)

end InterfaceAudit.Project
