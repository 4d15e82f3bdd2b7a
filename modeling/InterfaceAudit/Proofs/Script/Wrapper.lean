import InterfaceAudit.Proofs.Table
import InterfaceAudit.Script.Wrapper

/-!
Members of a wrapper class.
Each table of a wrapper knows a name by the first method of its kind in the body of the class.
-/

namespace InterfaceAudit

namespace Script

/-! ### Kinds of methods -/

/-- What a name and the words in front of it make of a method. -/
def MethodKind.Fits (name : String) (words : List String) : MethodKind → Prop
  | .constructor =>
    name = "constructor" ∧ "get" ∉ words ∧ "set" ∉ words ∧ "static" ∉ words
  | .getter => "get" ∈ words
  | .setter => "get" ∉ words ∧ "set" ∈ words
  | .static => "get" ∉ words ∧ "set" ∉ words ∧ "static" ∈ words
  | .plain =>
    name ≠ "constructor" ∧ "get" ∉ words ∧ "set" ∉ words ∧ "static" ∉ words

instance (name : String) (words : List String) (kind : MethodKind) :
    Decidable (kind.Fits name words) := by
  cases kind <;> unfold MethodKind.Fits <;> infer_instance

/-- A method has the kind that its name and its words make it. -/
theorem MethodKind.fits_of (name : String) (words : List String) :
    (of name words).Fits name words := by
  have marked : words.any ["get", "set", "static"].contains =
      decide ("get" ∈ words ∨ "set" ∈ words ∨ "static" ∈ words) := by
    rw [Bool.eq_iff_iff]
    simp [and_or_left, exists_or]
  unfold of
  rw [marked]
  simp only [List.contains_eq_mem]
  by_cases get : "get" ∈ words <;> by_cases set : "set" ∈ words <;>
    by_cases static : "static" ∈ words <;> by_cases named : name = "constructor" <;>
    simp [Fits, get, set, static, named]

/-- A name and the words in front of it fit one kind only. -/
theorem MethodKind.of_eq_iff {name : String} {words : List String} {kind : MethodKind} :
    of name words = kind ↔ kind.Fits name words := by
  constructor
  · rintro rfl
    exact fits_of name words
  · intro fits
    have alsoFits := fits_of name words
    cases found : of name words <;> cases kind <;> simp_all [Fits]

/-- The modifiers that a method of a kind has, and those that it cannot have. -/
def MethodKind.Carries (modifiers : List String) : MethodKind → Prop
  | .constructor | .plain => "get" ∉ modifiers ∧ "set" ∉ modifiers ∧ "static" ∉ modifiers
  | .getter => "get" ∈ modifiers
  | .setter => "set" ∈ modifiers ∧ "get" ∉ modifiers
  | .static => "static" ∈ modifiers ∧ "get" ∉ modifiers ∧ "set" ∉ modifiers

/-- The kind of a method is seen from its modifiers alone. -/
theorem MethodKind.of_carries (name : String) (modifiers : List String) :
    (of name modifiers).Carries modifiers := by
  have fits := fits_of name modifiers
  cases kind : of name modifiers with
  | constructor | plain =>
    rw [kind] at fits
    exact fits.2
  | getter =>
    rw [kind] at fits
    exact fits
  | setter =>
    rw [kind] at fits
    exact ⟨fits.2, fits.1⟩
  | static =>
    rw [kind] at fits
    exact ⟨fits.2.2, fits.1, fits.2.1⟩

/-! ### Methods of a class -/

/-- The methods that stand directly in the body of a class. -/
def Node.methods (classNode : Node) : List Node :=
  match classNode.child? .body with
  | some body => body.children.filter fun child => child.kind == .method
  | none => []

/-- A method is known by its kind and its name; the constructor needs no name. -/
def Tree.isMember (tree : Tree) (kind : MethodKind) (name : String) (method : Node) : Bool :=
  match method.child? .name with
  | some nameNode =>
    let spelled := String.ofList (tree.text nameNode)
    MethodKind.of spelled (method.modifiers nameNode) == kind &&
      (kind == .constructor || spelled == name)
  | none => false

end Script

namespace WrapperSymbols

open Script

/-- Where a member of a kind and a name stands. -/
def place? (symbols : WrapperSymbols) (name : String) : MethodKind → Option Place
  | .constructor => symbols.constructor
  | .getter => symbols.getters.get? name
  | .setter => symbols.setters.get? name
  | .static => symbols.staticMethods.get? name
  | .plain => symbols.methods.get? name

/-- Recording a method changes the place of its own name and kind, if there is none. -/
theorem record_place? (symbols : WrapperSymbols) (recorded name : String) (place : Place)
    (kind other : MethodKind) :
    (symbols.record recorded place kind).place? name other =
      (symbols.place? name other).or
        (if kind = other ∧ (other = .constructor ∨ recorded = name) then some place else none) := by
  cases kind <;> cases other <;> simp [record, place?, Table.get?_insertNew]

/-- A method is recorded at its place unless an earlier one is. -/
theorem recordMethod_place? (tree : Tree) (symbols : WrapperSymbols) (method : Node)
    (name : String) (kind : MethodKind) :
    (symbols.recordMethod tree method).place? name kind =
      (symbols.place? name kind).or
        (if tree.isMember kind name method then some method.span.place else none) := by
  unfold recordMethod Tree.isMember
  cases method.child? .name with
  | none => simp
  | some nameNode => simp [record_place?]

/-- The members of a class stand where the first methods of their kinds and names stand. -/
theorem ofNode_place? (tree : Tree) (classNode : Node) (name : String) (kind : MethodKind) :
    (ofNode tree classNode).place? name kind =
      (classNode.methods.find? (tree.isMember kind name)).map fun method => method.span.place := by
  have empty (className : String) : (ofClass className).place? name kind = none := by
    cases kind <;> rfl
  unfold ofNode Node.methods
  cases classNode.child? .body with
  | none => exact empty _
  | some body =>
    dsimp only
    rw [foldl_finds_first (fun symbols => symbols.place? name kind)
      fun symbols method => recordMethod_place? tree symbols method name kind, empty,
      Option.none_or, findSome?_tested]

end WrapperSymbols

end InterfaceAudit
