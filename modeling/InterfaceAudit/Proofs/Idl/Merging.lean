import InterfaceAudit.Idl.Document
import Mathlib.Data.Multiset.Bind

/-!
Merged interfaces and dictionaries.
The members of an interface depend only on the order of definitions within each group of
definitions, and they are all that the definitions of its name and the mixins that it includes
bring.
-/

namespace InterfaceAudit.Idl

/-! ### Groups of definitions -/

/-- The groups in which definitions are merged. -/
inductive Group where
  | interface (isPartial : Bool)
  | mixin
  | inclusion
  | dictionary (isPartial : Bool)
  deriving DecidableEq, Repr

/-- Mixins are one group, in parts or not; callback interfaces and namespaces are in no group. -/
def Definition.group? : Definition → Option Group
  | .interface definition =>
    match definition.kind with
    | .plain => some (.interface definition.isPartial)
    | .mixin => some .mixin
    | .callback | .namespace => none
  | .dictionary definition => some (.dictionary definition.isPartial)
  | .inclusion _ => some .inclusion
  | .enumeration _ | .callback _ | .typedef _ => none

/-- The definitions of a group in their order. -/
def Document.inGroup (document : Document) (group : Group) : List Definition :=
  document.definitions.filter fun definition => definition.group? == some group

/-! ### What definitions bring -/

/-- The members that a definition brings as a plain interface of the name, complete or partial. -/
def Definition.ownMembers (name : String) : Definition → List Member
  | .interface definition =>
    if definition.kind = .plain ∧ definition.name = name then definition.members else []
  | _ => []

/-- The members that the target of an inclusion takes over from a mixin. -/
def Definition.mixedIn (name : String) : Definition → Definition → List Member
  | .inclusion statement, .interface definition =>
    if statement.target = name ∧ definition.kind = .mixin ∧ definition.name = statement.mixin then
      definition.members
    else []
  | _, _ => []

theorem Definition.mixedIn_of_not_inclusion (name : String) {statement : Definition}
    (other : statement.group? ≠ some .inclusion) (definition : Definition) :
    statement.mixedIn name definition = [] := by
  cases statement with
  | inclusion statement => exact absurd rfl other
  | interface | dictionary | enumeration | callback | typedef => rfl

theorem Definition.mixedIn_of_not_mixin (name : String) (statement : Definition)
    {definition : Definition} (other : definition.group? ≠ some .mixin) :
    statement.mixedIn name definition = [] := by
  cases statement with
  | inclusion statement =>
    cases definition with
    | interface definition =>
      have notMixin : definition.kind ≠ .mixin := by
        intro kind
        simp [group?, kind] at other
      simp [mixedIn, notMixin]
    | dictionary | enumeration | callback | typedef | inclusion => rfl
  | interface | dictionary | enumeration | callback | typedef => rfl

/-- The fields that a definition brings as a dictionary of the name, complete or partial. -/
def Definition.ownFields (name : String) : Definition → List Field
  | .dictionary definition => if definition.name = name then definition.fields else []
  | _ => []

theorem flatMap_filter {Item Part : Type} (chosen : Item → Bool) (brings : Item → List Part)
    (items : List Item) :
    (items.filter chosen).flatMap brings =
      items.flatMap fun item => if chosen item then brings item else [] := by
  induction items with
  | nil => rfl
  | cons item items inductionHypothesis =>
    rw [List.filter_cons, List.flatMap_cons, ← inductionHypothesis]
    split
    · rw [List.flatMap_cons]
    · rw [List.nil_append]

/-- What selected values bring, told from the items that hold them. -/
theorem flatMap_selected {Item Value Part : Type} {select : Item → Option Value}
    {keep : Value → Bool} {parts : Value → List Part} {chosen : Item → Bool}
    {brings : Item → List Part}
    (same : ∀ item, ((select item).toList.filter keep).flatMap parts =
      if chosen item then brings item else []) (items : List Item) :
    ((items.filterMap select).filter keep).flatMap parts =
      (items.filter chosen).flatMap brings := by
  rw [List.filterMap_eq_flatMap_toList, List.filter_flatMap, List.flatMap_assoc, flatMap_filter]
  exact List.flatMap_congr fun item _ => same item

namespace Document

variable (document : Document) (name : String)

/-- The own members of an interface come from one group of definitions. -/
theorem ownMembers_eq (isPartial : Bool) :
    document.ownMembers name isPartial =
      (document.inGroup (.interface isPartial)).flatMap (Definition.ownMembers name) := by
  apply flatMap_selected
  intro definition
  cases definition with
  | interface definition =>
    cases kind : definition.kind with
    | plain =>
      by_cases sameName : definition.name = name <;>
        by_cases samePart : definition.isPartial = isPartial <;>
        simp [Definition.group?, Definition.ownMembers, kind, sameName, samePart]
    | mixin | callback | «namespace» => simp [Definition.group?, kind]
  | dictionary | enumeration | callback | typedef | inclusion => rfl

/-- The own fields of a dictionary come from one group of definitions. -/
theorem ownFields_eq (isPartial : Bool) :
    document.ownFields name isPartial =
      (document.inGroup (.dictionary isPartial)).flatMap (Definition.ownFields name) := by
  apply flatMap_selected
  intro definition
  cases definition with
  | dictionary definition =>
    by_cases sameName : definition.name = name <;>
      by_cases samePart : definition.isPartial = isPartial <;>
      simp [Definition.group?, Definition.ownFields, sameName, samePart]
  | interface definition => cases kind : definition.kind <;> simp [Definition.group?, kind]
  | enumeration | callback | typedef | inclusion => rfl

/-- The members of an included mixin come from the mixins alone. -/
theorem mixinMembers_eq {statement : Inclusion} (included : statement.target = name) :
    document.mixinMembers statement.mixin =
      (document.inGroup .mixin).flatMap
        ((Definition.inclusion statement).mixedIn name) := by
  apply flatMap_selected
  intro definition
  cases definition with
  | interface definition =>
    cases kind : definition.kind with
    | mixin =>
      by_cases sameName : definition.name = statement.mixin <;>
        simp [Definition.group?, Definition.mixedIn, kind, included, sameName]
    | plain | callback | «namespace» => simp [Definition.group?, kind]
  | dictionary | enumeration | callback | typedef | inclusion => rfl

/-- The included members come from each inclusion with each mixin, in this order. -/
theorem includedMembers_eq :
    ((document.inclusions.filter fun inclusion => inclusion.target == name).flatMap
        fun inclusion => document.mixinMembers inclusion.mixin) =
      (document.inGroup .inclusion).flatMap fun inclusion =>
        (document.inGroup .mixin).flatMap (inclusion.mixedIn name) := by
  apply flatMap_selected
  intro statement
  cases statement with
  | inclusion statement =>
    by_cases included : statement.target = name
    · simp [Definition.group?, included, document.mixinMembers_eq name included]
    · have nothing : (Definition.inclusion statement).mixedIn name = fun _ => [] := by
        funext definition
        cases definition <;> simp [Definition.mixedIn, included]
      simp [Definition.group?, included, nothing]
  | interface definition => cases kind : definition.kind <;> simp [Definition.group?, kind]
  | dictionary | enumeration | callback | typedef => rfl

/-- The members of a name are told by the groups of definitions alone. -/
theorem membersOf_eq :
    document.membersOf name =
      (document.inGroup (.interface false)).flatMap (Definition.ownMembers name) ++
        (document.inGroup (.interface true)).flatMap (Definition.ownMembers name) ++
        (document.inGroup .inclusion).flatMap fun inclusion =>
          (document.inGroup .mixin).flatMap (inclusion.mixedIn name) := by
  rw [membersOf, ownMembers_eq, ownMembers_eq, includedMembers_eq]

/-- The fields of the whole definitions stand in front of those of the parts. -/
theorem fieldsOf_eq :
    document.fieldsOf name =
      (document.inGroup (.dictionary false)).flatMap (Definition.ownFields name) ++
        (document.inGroup (.dictionary true)).flatMap (Definition.ownFields name) := by
  rw [fieldsOf, ownFields_eq, ownFields_eq]

/-! ### Rearranged documents -/

/-- Two documents have the same definitions of each group in the same order, wherever they stand, as
documents have that are rearranged without a change within a group. -/
def SameGroups (first second : Document) : Prop :=
  ∀ group, (first.inGroup group).map (Definition.withSpan none) =
    (second.inGroup group).map (Definition.withSpan none)

/-- What the definitions of a group bring is told without their spans. -/
theorem SameGroups.flatMap_eq {Part : Type} {first second : Document}
    {brings : Definition → List Part} (same : SameGroups first second)
    (unplaced : ∀ definition, brings (definition.withSpan none) = brings definition)
    (group : Group) :
    (first.inGroup group).flatMap brings = (second.inGroup group).flatMap brings := by
  have everywhere (definitions : List Definition) :
      definitions.flatMap brings =
        (definitions.map (Definition.withSpan none)).flatMap brings := by
    rw [List.flatMap_map]
    exact List.flatMap_congr fun definition _ => (unplaced definition).symm
  rw [everywhere, same group, ← everywhere]

/-- The members depend only on the order within each group. -/
theorem SameGroups.membersOf_eq {first second : Document} (same : SameGroups first second) :
    first.membersOf name = second.membersOf name := by
  have own : ∀ definition : Definition,
      (definition.withSpan none).ownMembers name = definition.ownMembers name := by
    intro definition
    cases definition <;> rfl
  have included : ∀ statement : Definition,
      (statement.withSpan none).mixedIn name = statement.mixedIn name := by
    intro statement
    funext definition
    cases statement <;> cases definition <;> rfl
  have mixed : ∀ statement definition : Definition,
      statement.mixedIn name (definition.withSpan none) = statement.mixedIn name definition := by
    intro statement definition
    cases statement <;> cases definition <;> rfl
  rw [Document.membersOf_eq, Document.membersOf_eq, same.flatMap_eq own, same.flatMap_eq own]
  congr 1
  simp only [fun statement => same.flatMap_eq (mixed statement) .mixin]
  apply same.flatMap_eq
  intro statement
  rw [included]

/-- The fields depend only on the order within each group. -/
theorem SameGroups.fieldsOf_eq {first second : Document} (same : SameGroups first second) :
    first.fieldsOf name = second.fieldsOf name := by
  have own : ∀ definition : Definition,
      (definition.withSpan none).ownFields name = definition.ownFields name := by
    intro definition
    cases definition <;> rfl
  rw [Document.fieldsOf_eq, Document.fieldsOf_eq, same.flatMap_eq own, same.flatMap_eq own]

/-! ### All members, in any order -/

/-- Definitions of other groups that bring nothing may be left in. -/
theorem flatMap_inGroup_of_nil {Part : Type} {group : Group} {brings : Definition → List Part}
    (others : ∀ definition, definition.group? ≠ some group → brings definition = []) :
    (document.inGroup group).flatMap brings = document.definitions.flatMap brings := by
  rw [inGroup, flatMap_filter]
  apply List.flatMap_congr
  intro definition _
  by_cases chosen : definition.group? = some group
  · simp [chosen]
  · simp [chosen, others definition chosen]

/-- Whole definitions and parts together bring what all definitions bring. -/
theorem flatMap_ownMembers_perm :
    ((document.inGroup (.interface false)).flatMap (Definition.ownMembers name) ++
        (document.inGroup (.interface true)).flatMap (Definition.ownMembers name)).Perm
      (document.definitions.flatMap (Definition.ownMembers name)) := by
  rw [inGroup, inGroup, flatMap_filter, flatMap_filter]
  refine (List.flatMap_append_perm _ _ _).trans (.of_eq ?_)
  apply List.flatMap_congr
  intro definition _
  cases definition with
  | interface definition =>
    cases kind : definition.kind with
    | plain =>
      cases part : definition.isPartial <;> simp [Definition.group?, kind, part]
    | mixin | callback | «namespace» => simp [Definition.group?, Definition.ownMembers, kind]
  | dictionary | enumeration | callback | typedef | inclusion => rfl

/-- Only inclusions and mixins mix anything in. -/
theorem flatMap_mixedIn_eq :
    ((document.inGroup .inclusion).flatMap fun inclusion =>
        (document.inGroup .mixin).flatMap (inclusion.mixedIn name)) =
      document.definitions.flatMap fun inclusion =>
        document.definitions.flatMap (inclusion.mixedIn name) := by
  have inner (inclusion : Definition) :
      (document.inGroup .mixin).flatMap (inclusion.mixedIn name) =
        document.definitions.flatMap (inclusion.mixedIn name) :=
    document.flatMap_inGroup_of_nil fun _ => Definition.mixedIn_of_not_mixin name inclusion
  simp only [inner]
  apply document.flatMap_inGroup_of_nil
  intro inclusion other
  rw [List.flatMap_eq_nil_iff]
  exact fun definition _ => Definition.mixedIn_of_not_inclusion name other definition

open Multiset in
/-- The members of a name are those of its plain interfaces and, for every inclusion into it and
every mixin of the included name, those of the mixin. -/
theorem coe_membersOf :
    (document.membersOf name : Multiset Member) =
      (document.definitions : Multiset Definition).bind (fun definition =>
          (definition.ownMembers name : Multiset Member)) +
        ((document.definitions : Multiset Definition) ×ˢ
          (document.definitions : Multiset Definition)).bind fun pair =>
            (pair.1.mixedIn name pair.2 : Multiset Member) := by
  have own := coe_eq_coe.mpr (document.flatMap_ownMembers_perm name)
  have pairs : ((document.definitions : Multiset Definition) ×ˢ
      (document.definitions : Multiset Definition)).bind (fun pair =>
        (pair.1.mixedIn name pair.2 : Multiset Member)) =
      (document.definitions.flatMap fun inclusion =>
        document.definitions.flatMap (inclusion.mixedIn name) : List Member) := by
    rw [coe_product, coe_bind]
    congr 1
    change (List.product document.definitions document.definitions).flatMap _ = _
    rw [List.product, List.flatMap_assoc]
    simp only [List.flatMap_map]
  rw [membersOf_eq, ← coe_add, own, flatMap_mixedIn_eq, pairs, coe_bind]

/-! ### Other definitions -/

/-- A definition takes part in the members of a name when it is a plain interface of the name, an
inclusion into it, or a mixin of a name that is included in it. -/
def TakesPart : Definition → Prop
  | .interface definition =>
    (definition.kind = .plain ∧ definition.name = name) ∨
      (definition.kind = .mixin ∧ ∃ statement : Inclusion,
        .inclusion statement ∈ document.definitions ∧ statement.target = name ∧
          statement.mixin = definition.name)
  | .inclusion statement => statement.target = name
  | .dictionary _ | .enumeration _ | .callback _ | .typedef _ => False

/-- A definition takes part in the fields of a name when it is a dictionary of the name. -/
def TakesPartInFields : Definition → Prop
  | .dictionary definition => definition.name = name
  | _ => False

end Document

/-- An item that brings nothing may be put anywhere. -/
theorem flatMap_insert_of_nil {Item Part : Type} {brings : Item → List Part} {item : Item}
    (nothing : brings item = []) (chosen : Item → Bool) (front back : List Item) :
    ((front ++ item :: back).filter chosen).flatMap brings =
      ((front ++ back).filter chosen).flatMap brings := by
  simp only [flatMap_filter, List.flatMap_append, List.flatMap_cons, nothing, ite_self,
    List.nil_append]

variable {name : String} {definition : Definition} {front back : List Definition}

/-- A definition that takes no part has no members of its own to bring. -/
theorem Definition.ownMembers_of_not_takesPart {document : Document}
    (other : ¬ document.TakesPart name definition) : definition.ownMembers name = [] := by
  cases definition with
  | interface definition =>
    exact if_neg fun own => other (.inl own)
  | dictionary | enumeration | callback | typedef | inclusion => rfl

/-- A definition that takes no part includes nothing. -/
theorem Definition.mixedIn_of_not_takesPart {document : Document}
    (other : ¬ document.TakesPart name definition) (mixin : Definition) :
    definition.mixedIn name mixin = [] := by
  cases definition with
  | inclusion statement =>
    cases mixin with
    | interface mixin => exact if_neg fun included => other included.1
    | dictionary | enumeration | callback | typedef | inclusion => rfl
  | interface | dictionary | enumeration | callback | typedef => rfl

/-- A definition that takes no part is included by nothing. -/
theorem Definition.mixedIn_of_not_included {document : Document}
    (other : ¬ document.TakesPart name definition) {statement : Definition}
    (listed : statement ∈ document.definitions) : statement.mixedIn name definition = [] := by
  cases statement with
  | inclusion statement =>
    cases definition with
    | interface definition =>
      refine if_neg fun included => other (.inr ⟨included.2.1, statement, listed, ?_⟩)
      exact ⟨included.1, included.2.2.symm⟩
    | dictionary | enumeration | callback | typedef | inclusion => rfl
  | interface | dictionary | enumeration | callback | typedef => rfl

/-- A definition that takes no part in the members of a name can be added or removed. -/
theorem membersOf_insert (other : ¬ (Document.mk (front ++ back)).TakesPart name definition) :
    (Document.mk (front ++ definition :: back)).membersOf name =
      (Document.mk (front ++ back)).membersOf name := by
  have own := Definition.ownMembers_of_not_takesPart other
  rw [Document.membersOf_eq, Document.membersOf_eq]
  simp only [Document.inGroup]
  rw [flatMap_insert_of_nil own, flatMap_insert_of_nil own, flatMap_insert_of_nil]
  · refine congrArg _ (List.flatMap_congr fun statement listed => ?_)
    have included := Definition.mixedIn_of_not_included other (List.mem_filter.mp listed).1
    exact flatMap_insert_of_nil included _ front back
  · rw [List.flatMap_eq_nil_iff]
    exact fun mixin _ => Definition.mixedIn_of_not_takesPart other mixin

/-- A definition that takes no part in the fields of a name can be added or removed. -/
theorem fieldsOf_insert (other : ¬ Document.TakesPartInFields name definition) :
    (Document.mk (front ++ definition :: back)).fieldsOf name =
      (Document.mk (front ++ back)).fieldsOf name := by
  have own : definition.ownFields name = [] := by
    cases definition with
    | dictionary definition => exact if_neg other
    | interface | enumeration | callback | typedef | inclusion => rfl
  rw [Document.fieldsOf_eq, Document.fieldsOf_eq]
  simp only [Document.inGroup]
  rw [flatMap_insert_of_nil own, flatMap_insert_of_nil own]

/-- Members and fields do not depend on how the groups of definitions are mixed. The members of a
name are exactly those of its plain interfaces and, once for every inclusion into it and every mixin
of the included name, those of the mixin. No other definition changes them. -/
theorem members_merged (name : String) :
    (∀ first second : Document, first.SameGroups second →
        first.membersOf name = second.membersOf name ∧
          first.fieldsOf name = second.fieldsOf name) ∧
      (∀ document : Document, (document.membersOf name : Multiset Member) =
        (document.definitions : Multiset Definition).bind (fun definition =>
            (definition.ownMembers name : Multiset Member)) +
          ((document.definitions : Multiset Definition) ×ˢ
            (document.definitions : Multiset Definition)).bind fun pair =>
              (pair.1.mixedIn name pair.2 : Multiset Member)) ∧
      ∀ (front back : List Definition) (definition : Definition),
        (¬ (Document.mk (front ++ back)).TakesPart name definition →
          (Document.mk (front ++ definition :: back)).membersOf name =
            (Document.mk (front ++ back)).membersOf name) ∧
        (¬ Document.TakesPartInFields name definition →
          (Document.mk (front ++ definition :: back)).fieldsOf name =
            (Document.mk (front ++ back)).fieldsOf name) :=
  ⟨fun _ _ same => ⟨same.membersOf_eq name, same.fieldsOf_eq name⟩,
    fun document => document.coe_membersOf name,
    fun _ _ _ => ⟨membersOf_insert, fieldsOf_insert⟩⟩

/-- A definition of an interface with one attribute, on one line. -/
def oneAttribute (kind : InterfaceKind) (isPartial : Bool) (name member : String) (line : Nat) :
    Definition :=
  .interface
    { name
      members := [.attribute { name := member, type := "long" }]
      kind
      isPartial
      span := some ⟨line, line⟩ }

/-- An interface, its part, and a mixin with a part. -/
def groupedDefinitions : List Definition :=
  [oneAttribute .plain false "A" "a" 1, oneAttribute .plain true "A" "b" 2,
    oneAttribute .mixin false "M" "m" 3, oneAttribute .mixin true "M" "n" 4,
    .inclusion { target := "A", mixin := "M", span := some ⟨5, 5⟩ }]

/-- The same definitions with the groups mixed. -/
def scatteredDefinitions : List Definition :=
  [.inclusion { target := "A", mixin := "M", span := some ⟨1, 1⟩ },
    oneAttribute .mixin false "M" "m" 2, oneAttribute .plain true "A" "b" 3,
    oneAttribute .mixin true "M" "n" 4, oneAttribute .plain false "A" "a" 5]

/-- A part of a namespace is no part of the interface of its name. -/
theorem members_merged_scattered :
    (Document.mk scatteredDefinitions).membersOf "A" =
        (Document.mk groupedDefinitions).membersOf "A" ∧
      (Document.mk (groupedDefinitions ++ [oneAttribute .namespace true "A" "x" 6])).membersOf "A" =
        (Document.mk (groupedDefinitions ++ [])).membersOf "A" := by
  obtain ⟨rearranged, -, others⟩ := members_merged "A"
  have sameGroups :
      (Document.mk scatteredDefinitions).SameGroups (Document.mk groupedDefinitions) := by
    intro group
    cases group with
    | interface isPartial | dictionary isPartial => cases isPartial <;> rfl
    | mixin | inclusion => rfl
  refine ⟨(rearranged _ _ sameGroups).1, (others groupedDefinitions [] _).1 ?_⟩
  rintro (own | mixin)
  · exact absurd own.1 (by decide)
  · exact absurd mixin.1 (by decide)

end InterfaceAudit.Idl
