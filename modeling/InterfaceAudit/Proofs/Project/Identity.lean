import InterfaceAudit.Proofs.Project.Features
import InterfaceAudit.Proofs.Text.Mark
import Mathlib.Data.List.Nodup

/-!
Identity of features and steps.
A feature is known by the name of its member and a step by what stands behind the last point of its
id, so members of one name have the same ids, and members of different names have none in common.
-/

namespace InterfaceAudit

open Idl (Document Subject)

namespace Audit

/-! ### Step ids -/

/-- What the ids of the steps add to the id of their feature. -/
def stepLabels (count : Nat) : List String :=
  if count = 0 then ["verify"]
  else (List.range count).map fun position => "step-" ++ toString (position + 1)

def stepId (featureId label : String) : String := featureId ++ "." ++ label

/-- The ids of the steps are the labels behind the id of the feature. -/
theorem Verifies.ids {featureId : String} {algorithmSteps : List String} {links : CrossReference}
    {steps : List Step} (verifies : Verifies featureId algorithmSteps links steps) :
    steps.map Step.id = (stepLabels algorithmSteps.length).map (stepId featureId) := by
  have split (front back : String) : featureId ++ (front ++ back) = featureId ++ front ++ back :=
    String.append_assoc.symm
  by_cases empty : algorithmSteps = []
  · rw [verifies.single empty, empty]
    exact congrArg (fun id => [id]) (split "." "verify")
  · have counted : algorithmSteps.length ≠ 0 := by simpa using empty
    rw [verifies.numbered empty, stepLabels, if_neg counted]
    refine List.ext_getElem (by simp) fun position _ _ => ?_
    simp only [List.getElem_map, List.getElem_mapIdx, List.getElem_range, stepId]
    rw [← String.append_assoc, ← split "." "step-"]
    rfl

/-- Digits and the words for a step have no point in them. -/
theorem point_not_mem_stepLabels {count : Nat} {label : String}
    (member : label ∈ stepLabels count) : '.' ∉ label.toList := by
  unfold stepLabels at member
  split at member
  · rw [List.mem_singleton.mp member]
    decide
  · obtain ⟨position, -, rfl⟩ := List.mem_map.mp member
    rw [String.toList_append, List.mem_append, Nat.toString_eq_repr, Nat.toList_repr]
    rintro (word | digits)
    · exact absurd word (by decide)
    · exact absurd (Nat.isDigit_of_mem_toDigits (by decide) (by decide) digits) (by decide)

/-- Different numbers are written differently. -/
theorem toString_injective {number other : Nat} (same : toString number = toString other) :
    number = other := by
  have digits : Nat.toDigits 10 number = Nat.toDigits 10 other := by
    simpa only [Nat.toString_eq_repr, Nat.toList_repr] using congrArg String.toList same
  rw [← Nat.ofDigitChars_ten_toDigits (n := number), digits, Nat.ofDigitChars_ten_toDigits]

/-- The labels of one feature are distinct. -/
theorem nodup_stepLabels (count : Nat) : (stepLabels count).Nodup := by
  unfold stepLabels
  split
  · exact List.nodup_singleton _
  · refine List.Nodup.map (fun position other same => ?_) List.nodup_range
    exact Nat.succ.inj (toString_injective ((String.append_right_inj _).mp same))

/-- A step id falls apart at its last point. -/
theorem stepId_inj {first second label other : String} (labelFree : '.' ∉ label.toList)
    (otherFree : '.' ∉ other.toList) (same : stepId first label = stepId second other) :
    first = second ∧ label = other := by
  have spelled := congrArg String.toList same
  simp only [stepId, String.toList_append, List.append_assoc] at spelled
  obtain ⟨sameFirst, sameLabel⟩ := Text.append_lastMark_inj labelFree otherFree spelled
  exact ⟨String.toList_inj.mp sameFirst, String.toList_inj.mp sameLabel⟩

end Audit

/-! ### Ids of one document -/

namespace Project

open Audit (Feature Step stepId stepLabels)

variable {settings : Settings} {evidence : Evidence} {subject other : Subject}
  {first second : Feature}

/-- Features share their id when their members share their name. -/
theorem Describes.id_eq_iff (described : Describes evidence subject first)
    (alsoDescribed : Describes evidence other second) :
    first.id = second.id ↔ subject.name = other.name := by
  rw [described.id, alsoDescribed.id, String.append_right_inj]

/-- The number of steps of a member decides their ids. -/
theorem Describes.stepIds (described : Describes evidence subject first) :
    first.steps.map Step.id =
      (stepLabels (Audit.algorithmSteps evidence.narrative subject.name).length).map
        (stepId first.id) := by
  rw [described.steps.ids, described.algorithmSteps]
  rfl

/-- The steps of one feature have distinct ids. -/
theorem Describes.nodup_stepIds (described : Describes evidence subject first) :
    (first.steps.map Step.id).Nodup := by
  rw [described.stepIds]
  refine (Audit.nodup_stepLabels _).map_on fun label member otherLabel otherMember same => ?_
  exact (Audit.stepId_inj (Audit.point_not_mem_stepLabels member)
    (Audit.point_not_mem_stepLabels otherMember) same).2

/-- Two features of one name have the same step ids, because the narrative lists the same steps for
both of them. -/
theorem Describes.disjoint_stepIds_iff (described : Describes evidence subject first)
    (alsoDescribed : Describes evidence other second) :
    List.Disjoint (first.steps.map Step.id) (second.steps.map Step.id) ↔ first.id ≠ second.id := by
  constructor
  · intro disjoint sameId
    have sameName := (described.id_eq_iff alsoDescribed).mp sameId
    have sameSteps : first.steps.map Step.id = second.steps.map Step.id := by
      rw [described.stepIds, alsoDescribed.stepIds, sameName, sameId]
    obtain ⟨id, member⟩ := List.exists_mem_of_ne_nil (second.steps.map Step.id)
      (by simpa using alsoDescribed.steps.notEmpty)
    exact disjoint (sameSteps ▸ member) member
  · intro apart id member otherMember
    rw [described.stepIds] at member
    rw [alsoDescribed.stepIds] at otherMember
    obtain ⟨label, labelMember, rfl⟩ := List.mem_map.mp member
    obtain ⟨otherLabel, otherLabelMember, same⟩ := List.mem_map.mp otherMember
    exact apart (Audit.stepId_inj (Audit.point_not_mem_stepLabels otherLabelMember)
      (Audit.point_not_mem_stepLabels labelMember) same).1.symm

section

variable {subjects : List Subject} {features : List Feature}
  (described : List.Forall₂ (Describes evidence) subjects features)

include described

theorem exists_describes (member : first ∈ features) :
    ∃ subject, Describes evidence subject first :=
  (exists_of_forall₂ described.flip member).imp fun _ found => found.2

/-- The ids of the features are the names of the members behind that of the interface. -/
theorem map_id_of_describes :
    features.map Feature.id =
      (subjects.map Subject.name).map fun name => evidence.interface ++ "." ++ name := by
  induction described with
  | nil => rfl
  | cons described _ inductionHypothesis =>
    simp only [List.map_cons, inductionHypothesis, described.id]

/-- The ids of all steps identify exactly when the ids of the features do. -/
theorem nodup_stepIds_iff :
    ((features.flatMap Feature.steps).map Step.id).Nodup ↔ (features.map Feature.id).Nodup := by
  have within : ∀ feature ∈ features, (feature.steps.map Step.id).Nodup := by
    intro feature member
    obtain ⟨subject, describes⟩ := exists_describes described member
    exact describes.nodup_stepIds
  have apart : (features.map Feature.id).Nodup ↔
      features.Pairwise fun first second => first.id ≠ second.id :=
    List.pairwise_map
  rw [List.map_flatMap, List.nodup_flatMap, and_iff_right within, apart]
  refine List.Pairwise.iff_of_mem fun {first second} member otherMember => ?_
  obtain ⟨subject, describes⟩ := exists_describes described member
  obtain ⟨other, alsoDescribes⟩ := exists_describes described otherMember
  exact describes.disjoint_stepIds_iff alsoDescribes

end

/-- The features of a document are told apart by the names of their members, and so are their steps.
All ids identify when no two of the members that the interface, its parts and its mixins contribute
have the same name. -/
theorem auditInterface_identifies {document : Document} {interface : Idl.Interface}
    {texts : ArtifactTexts} {audit : Audit.InterfaceDocument}
    (audited :
      (auditInterface parse settings interface (document.subjectsOf interface.name) texts).1 =
        .audited audit) :
    let names := (document.subjectsOf interface.name).map Subject.name
    audit.features.map Feature.id = (names.map fun name => interface.name ++ "." ++ name) ∧
      ((audit.features.map Feature.id).Nodup ↔ names.Nodup) ∧
      (((audit.features.flatMap Feature.steps).map Step.id).Nodup ↔ names.Nodup) ∧
      (∀ feature ∈ audit.features, (feature.steps.map Step.id).Nodup) ∧
      ∀ first ∈ audit.features, ∀ second ∈ audit.features, first.id ≠ second.id →
        List.Disjoint (first.steps.map Step.id) (second.steps.map Step.id) := by
  intro names
  obtain ⟨wrapper, -, described⟩ := describes_of_audited audited
  have ids : audit.features.map Feature.id = names.map fun name => interface.name ++ "." ++ name :=
    map_id_of_describes described
  have identified : (audit.features.map Feature.id).Nodup ↔ names.Nodup := by
    rw [ids]
    exact List.nodup_map_iff fun name other same => (String.append_right_inj _).mp same
  refine ⟨ids, identified, (nodup_stepIds_iff described).trans identified, ?_, ?_⟩
  · intro feature member
    obtain ⟨subject, describes⟩ := exists_describes described member
    exact describes.nodup_stepIds
  · intro first member second otherMember apart
    obtain ⟨subject, describes⟩ := exists_describes described member
    obtain ⟨other, alsoDescribes⟩ := exists_describes described otherMember
    exact (describes.disjoint_stepIds_iff alsoDescribes).mpr apart

/-- A narrative with two steps for one of the methods. -/
def narratedTexts : ArtifactTexts where
  header := assembledTexts.header
  implementation := assembledTexts.implementation
  wrapper := assembledTexts.wrapper
  narrative :=
    some "### run\n\n**Signature:** `void run()`\n\n**Algorithm:**\n\n1. Go.\n2. Go.\n".toList
  tests := none

/-- A narrated method and one without steps have distinct step ids. -/
theorem auditInterface_identifies_narrated :
    ∃ audit, (auditInterface Script.Tree.ofText {} assembled (assembledDocument.subjectsOf "A")
        narratedTexts).1 = .audited audit ∧
      (audit.features.map Feature.id).Nodup ∧
      ((audit.features.flatMap Feature.steps).map Step.id).Nodup := by
  have written : (InterfaceResult.mk "A" (auditInterface Script.Tree.ofText {} assembled
      (assembledDocument.subjectsOf "A") narratedTexts).1).isWritten = true := by
    decide +kernel
  have distinct : ((assembledDocument.subjectsOf "A").map Subject.name).Nodup := by decide +kernel
  obtain ⟨audit, audited⟩ := exists_audited written
  obtain ⟨-, features, steps, -⟩ := auditInterface_identifies audited
  exact ⟨audit, audited, features.mpr distinct, steps.mpr distinct⟩

/-- An interface that overloads its only method. -/
def overloadedText : List Char := "interface A \x7b void run(); void run(long x); \x7d;".toList

def overloaded : Idl.Interface where
  name := "A"
  members :=
    [.operation { name := some "run", returnType := "void" },
      .operation { name := some "run", returnType := "void",
                   parameters := [{ name := "x", type := "long" }] }]
  span := some ⟨1, 1⟩

def overloadedDocument : Document := ⟨[.interface overloaded]⟩

def overloadedTexts : ArtifactTexts where
  header := "void Run();\n".toList
  implementation := "void A::Run() \x7b\x7d\n".toList
  wrapper := "class A \x7b run() \x7b\x7d \x7d\n".toList
  narrative := none
  tests := none

/-- The two features of an overloaded method have one id, and so have their steps. -/
theorem overloads_share_ids :
    Document.parse overloadedText = .ok overloadedDocument ∧
      overloaded ∈ overloadedDocument.interfaces ∧
      ∃ audit, (auditInterface Script.Tree.ofText {} overloaded
            (overloadedDocument.subjectsOf overloaded.name) overloadedTexts).1 = .audited audit ∧
        ¬ (audit.features.map Feature.id).Nodup ∧
        ¬ ((audit.features.flatMap Feature.steps).map Step.id).Nodup := by
  refine ⟨by decide +kernel, by decide +kernel, ?_⟩
  have written : (InterfaceResult.mk "A" (auditInterface Script.Tree.ofText {} overloaded
      (overloadedDocument.subjectsOf overloaded.name) overloadedTexts).1).isWritten = true := by
    decide +kernel
  obtain ⟨audit, audited⟩ := exists_audited written
  obtain ⟨wrapper, -, described⟩ := describes_of_audited audited
  have ids : audit.features.map Feature.id =
      ((overloadedDocument.subjectsOf "A").map Subject.name).map fun name => "A" ++ "." ++ name :=
    map_id_of_describes described
  have repeated : ¬ (audit.features.map Feature.id).Nodup := by
    rw [ids]
    decide +kernel
  exact ⟨audit, audited, repeated, fun distinct =>
    repeated ((nodup_stepIds_iff described).mp distinct)⟩

end Project

end InterfaceAudit
