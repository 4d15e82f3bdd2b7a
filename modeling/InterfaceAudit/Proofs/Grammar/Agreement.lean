import InterfaceAudit.Proofs.Grammar.Lockstep
import Mathlib.Data.List.Forall2

/-!
Agreement of values.
The values of twin readings are related as the values of their parts are, one lemma for each way to
build an expression.
-/

namespace InterfaceAudit.Grammar

variable {Token : Type} {Rule : Type → Type} {First Second Result Item : Type}

/-- Twin readings of an expression have related values. -/
def Expression.Agrees (bond : Bond Token Rule) (expression : Expression Token Rule Result)
    (Related : Result → Result → Prop) : Prop :=
  ∀ ⦃one other : Taken Result⦄, expression.Twin bond one other → Related one.2 other.2

/-- Pairs are related in both of their parts. -/
def Both (FirstRelated : First → First → Prop) (SecondRelated : Second → Second → Prop)
    (one other : First × Second) : Prop :=
  FirstRelated one.1 other.1 ∧ SecondRelated one.2 other.2

namespace Expression.Agrees

variable {bond : Bond Token Rule} {FirstRelated : First → First → Prop}
  {SecondRelated : Second → Second → Prop} {Related : Result → Result → Prop}
  {ItemRelated : Item → Item → Prop} {first : Expression Token Rule First}
  {second : Expression Token Rule Second} {inner : Expression Token Rule Result}
  {item : Expression Token Rule Item}

/-- Nothing is said about values that do not count. -/
theorem any (inner : Expression Token Rule Result) : inner.Agrees bond fun _ _ => True :=
  fun _ _ _ => trivial

/-- Values that are built in the same way are related when their parts are. -/
theorem map {build : Result → Item} (agrees : inner.Agrees bond Related)
    (related : ∀ {value other}, Related value other → ItemRelated (build value) (build other)) :
    (Expression.map build inner).Agrees bond ItemRelated := by
  rintro one other ⟨value, otherValue, twin, same, otherSame⟩
  rw [same, otherSame]
  exact related (agrees twin)

/-- A sequence relates the values of both its parts. -/
theorem seq (firstAgrees : first.Agrees bond FirstRelated)
    (secondAgrees : second.Agrees bond SecondRelated) :
    (Expression.seq first second).Agrees bond (Both FirstRelated SecondRelated) := by
  rintro one other ⟨_, _, _, _, _, _, firstTwin, secondTwin⟩
  exact ⟨firstAgrees firstTwin, secondAgrees secondTwin⟩

theorem skipThen (first : Expression Token Rule First) (agrees : inner.Agrees bond Related) :
    (skipThen first inner).Agrees bond Related :=
  ((any first).seq agrees).map And.right

theorem thenSkip (agrees : inner.Agrees bond Related) (second : Expression Token Rule Second) :
    (thenSkip inner second).Agrees bond Related :=
  (agrees.seq (any second)).map And.left

/-- Twin readings take the same alternative, so both have to agree. -/
theorem choice {other : Expression Token Rule Result} (agrees : inner.Agrees bond Related)
    (otherAgrees : other.Agrees bond Related) :
    (Expression.choice inner other).Agrees bond Related :=
  fun _ _ twin => twin.elim (@agrees _ _) (@otherAgrees _ _)

/-- A phrase that is missing on one side is missing on the other. -/
theorem optional (agrees : inner.Agrees bond Related) :
    (Expression.optional inner).Agrees bond (Option.Rel Related) := by
  rintro one other (⟨rfl, rfl⟩ | ⟨value, otherValue, same, otherSame, twin⟩)
  · exact .none
  · rw [same, otherSame]
    exact .some (agrees twin)

/-- As many items are read on both sides. -/
theorem many (agrees : item.Agrees bond ItemRelated) :
    (Expression.many item).Agrees bond (List.Forall₂ ItemRelated) := by
  intro one other (twins : Twins (item.Twin bond) one other)
  induction twins with
  | nil => exact .nil
  | cons head tail inductionHypothesis => exact .cons (agrees head) inductionHypothesis

/-- The sources of twin readings are related as the bond says. -/
theorem source (agrees : inner.Agrees bond Related) :
    (Expression.source inner).Agrees bond (Both bond.source Related) := by
  rintro one other ⟨bonded, same, otherSame, twin⟩
  refine ⟨?_, @agrees (one.1, one.2.2) (other.1, other.2.2) twin⟩
  rw [same, otherSame]
  exact bonded

/-- Both readings find the phrase, or none does. -/
theorem present (inner : Expression Token Rule Result) :
    (Expression.present inner).Agrees bond Eq := by
  refine (any inner).optional.map ?_
  intro _ _ related
  cases related with
  | some _ => rfl
  | none => rfl

/-- Items with separators between them are related one by one. -/
theorem separated (separator : Expression Token Rule First)
    (agrees : item.Agrees bond ItemRelated) :
    (separated separator item).Agrees bond (List.Forall₂ ItemRelated) :=
  (agrees.seq (agrees.skipThen separator).many).map fun related => .cons related.1 related.2

end Expression.Agrees

end InterfaceAudit.Grammar
