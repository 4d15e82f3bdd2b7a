import InterfaceAudit.Proofs.Grammar.Agreement
import InterfaceAudit.Proofs.Idl.Alike
import InterfaceAudit.Proofs.Idl.Refill

/-!
Agreement of declarations.
Phrases that are read from refilled texts declare the same, up to the strings that are read from a
source that reaches over the interval.
-/

namespace InterfaceAudit.Idl

open Grammar
open Grammar.Expression (skipThen thenSkip firstOf present separated)

/-! ### Wordings of refilled texts -/

namespace Refill

variable (refill : Refill)

/-- Strings of types, defaults and extended attributes that are read from the same source or from
sources that reach over the interval. -/
inductive Respelled : String → String → Prop
  | squeezed {source otherSource : List Char} (sources : refill.Sources source otherSource) :
      Respelled (squeezed source) (squeezed otherSource)
  | nullable {source otherSource : List Char} (sources : refill.Sources source otherSource) :
      Respelled (Idl.squeezed source ++ "?") (Idl.squeezed otherSource ++ "?")
  | default {source otherSource : List Char} (sources : refill.Sources source otherSource) :
      Respelled (defaultText source) (defaultText otherSource)

/-- A qualifier is read with the blank behind it, which the run may end. -/
inductive Requalified : String → String → Prop
  | same (qualifier : String) : Requalified qualifier qualifier
  | swap {front : List Char}
      (sources : refill.Sources (front ++ refill.run) (front ++ refill.other)) :
      Requalified (String.ofList (Text.trim (front ++ refill.run)))
        (String.ofList (Text.trim (front ++ refill.other)))

def wording : Wording where
  spelled := refill.Respelled
  qualified := refill.Requalified

/-- What both rules read is spelled alike. -/
def Rules {Result : Type} : Rule Result → Taken Result → Taken Result → Prop
  | .type, one, another => refill.Respelled one.2.text another.2.text
  | .extAttrs, one, another => List.Forall₂ refill.Respelled one.2 another.2

def bond : Bond Token Rule where
  token := refill.Tokens
  rule := refill.Rules
  source := refill.Sources

end Refill

section Phrases

variable {refill : Refill} {Value : Type} {Related : Value → Value → Prop} {phrase : Phrase Value}

/-- The values of twin readings of a phrase are related. -/
abbrev Agrees (refill : Refill) (phrase : Phrase Value) (Related : Value → Value → Prop) : Prop :=
  phrase.Agrees refill.bond Related

/-- Tokens that are no blank run are the same on both sides. -/
theorem token_agrees {kind : Token} (solid : kind ≠ .blank) : Agrees refill (.token kind) Eq := by
  rintro one another ⟨tokens, same, otherSame⟩
  rw [same, otherSame]
  exact tokens.resolve_right fun ⟨isBlank, _⟩ => solid isBlank

/-- A blank run in front of a phrase may change; what the phrase declares may not. -/
theorem spaced_agrees (agrees : Agrees refill phrase Related) :
    Agrees refill (spaced phrase) Related :=
  agrees.thenSkip blank

/-- Names are the same on both sides. -/
theorem name_agrees : Agrees refill name Eq :=
  (token_agrees (by decide)).map fun same => congrArg String.ofList same

/-! ### Types and extended attributes -/

/-- The type rule respells its type, because a source may reach over the interval. -/
theorem type_agrees :
    Agrees refill type fun one another => refill.Respelled one.text another.text :=
  fun _ _ respelled => respelled

/-- The rule of extended attributes respells them one by one. -/
theorem extAttrs_agrees :
    Agrees refill (.rule .extAttrs) (List.Forall₂ refill.Respelled) :=
  fun _ _ respelled => respelled

/-- The body of the type rule: a nullable type is the squeezed source with its question mark. -/
theorem typeRule_agrees :
    Agrees refill typeRule fun one another => refill.Respelled one.text another.text := by
  refine (Expression.Agrees.seq (.any _)
    (.seq (.source (.any typeBody)) (.present (skipThen blank (symbol '?'))))).map ?_
  rintro ⟨_, body, mark⟩ ⟨_, otherBody, otherMark⟩ ⟨-, ⟨sources, -⟩, (rfl : mark = otherMark)⟩
  cases mark with
  | false => exact .squeezed sources
  | true => exact .nullable sources

/-- An extended attribute is the squeezed source of what it spans. -/
theorem extAttr_agrees : Agrees refill extAttr refill.Respelled :=
  (Expression.Agrees.source (.any _)).map fun both => .squeezed both.1

/-- A bracketed section has as many attributes on both sides. -/
theorem extAttrSection_agrees :
    Agrees refill extAttrSection (List.Forall₂ refill.Respelled) :=
  .skipThen _ (.thenSkip (spaced_agrees (.separated comma extAttr_agrees)) _)

/-- Twin readings of what a rule stands for are twin readings of the rule. -/
theorem body_bond (rule : Rule Value) {one another : Taken Value}
    (twin : (Rule.body rule).Twin refill.bond one another) : refill.Rules rule one another := by
  cases rule with
  | type => exact typeRule_agrees twin
  | extAttrs => exact extAttrSection_agrees twin

/-- An absent list counts as an empty one. -/
theorem forall₂_getD {Item : Type} {ItemRelated : Item → Item → Prop}
    {items others : Option (List Item)}
    (related : Option.Rel (List.Forall₂ ItemRelated) items others) :
    List.Forall₂ ItemRelated (items.getD []) (others.getD []) := by
  cases related with
  | some both => exact both
  | none => exact .nil

/-- A phrase agrees with the attributes in front of it, whether there are any or not. -/
theorem attributed_agrees (agrees : Agrees refill phrase Related) :
    Agrees refill (attributed phrase) (Both (List.Forall₂ refill.Respelled) Related) :=
  (Expression.Agrees.seq (spaced_agrees extAttrs_agrees).optional agrees).map
    fun ⟨extAttrs, values⟩ => ⟨forall₂_getD extAttrs, values⟩

/-! ### Arguments -/

/-- A default keeps its text up to the squeezing of a source. -/
theorem default_agrees : Agrees refill «default» refill.Respelled :=
  .skipThen _ ((Expression.Agrees.source (.any _)).map fun both => .default both.1)

/-- An optional argument has a default on both sides or on neither. -/
theorem optionalArgument_agrees :
    Agrees refill optionalArgument (Argument.Alike refill.wording) :=
  (Expression.Agrees.skipThen _ (.seq (spaced_agrees type_agrees)
    (.seq (spaced_agrees name_agrees) (.optional default_agrees)))).map
      fun ⟨type, name, default⟩ => ⟨name, type, rfl, rfl, default, .nil⟩

theorem variadicArgument_agrees :
    Agrees refill variadicArgument (Argument.Alike refill.wording) :=
  (Expression.Agrees.seq (spaced_agrees type_agrees) (.skipThen _ name_agrees)).map
    fun ⟨type, name⟩ => ⟨name, type, rfl, rfl, .none, .nil⟩

theorem requiredArgument_agrees :
    Agrees refill requiredArgument (Argument.Alike refill.wording) :=
  (Expression.Agrees.seq (spaced_agrees type_agrees) name_agrees).map
    fun ⟨type, name⟩ => ⟨name, type, rfl, rfl, .none, .nil⟩

/-- An argument agrees with its attributes, in whichever of its three forms it stands. -/
theorem argument_agrees :
    Agrees refill argument (Argument.Alike refill.wording) :=
  (attributed_agrees (.choice optionalArgument_agrees
    (.choice variadicArgument_agrees requiredArgument_agrees))).map
      fun ⟨extAttrs, alike⟩ => { alike with extAttrs }

/-- Parameter lists agree argument by argument, and an empty list meets an empty list. -/
theorem parameters_agrees :
    Agrees refill parameters (List.Forall₂ (Argument.Alike refill.wording)) := by
  have arguments : Agrees refill (.optional (separated comma argument))
      (Option.Rel (List.Forall₂ (Argument.Alike refill.wording))) :=
    (Expression.Agrees.separated comma argument_agrees).optional
  exact .skipThen _ (.thenSkip (spaced_agrees (arguments.map forall₂_getD)) _)

/-! ### Members -/

/-- The value of a constant is a token of its own, so the interval cannot lie inside it. -/
theorem constantValue_agrees : Agrees refill constantValue Eq :=
  .choice (token_agrees (by decide)) (.choice (token_agrees (by decide)) (token_agrees (by decide)))

/-- Constructors agree in their arguments. -/
theorem constructorMember_agrees :
    Agrees refill constructorMember (Member.Alike refill.wording) :=
  (Expression.Agrees.skipThen _ (.thenSkip (spaced_agrees parameters_agrees) _)).map
    fun parameters => .constructor ⟨parameters, .nil⟩

/-- Constants have the same name and the same value, and their types are respelled. -/
theorem constantMember_agrees :
    Agrees refill constantMember (Member.Alike refill.wording) :=
  (Expression.Agrees.skipThen _ (.seq (spaced_agrees type_agrees)
    (.seq (.thenSkip (spaced_agrees name_agrees) _)
      (.thenSkip (spaced_agrees constantValue_agrees) _)))).map
        fun ⟨type, name, value⟩ => .constant ⟨name, type, congrArg String.ofList value, .nil⟩

/-- An iterable declaration has one type or a pair of types on both sides. -/
theorem iterableMember_agrees :
    Agrees refill iterableMember (Member.Alike refill.wording) := by
  refine (Expression.Agrees.seq (.present _) (.skipThen _ (.skipThen _ (.seq
    (spaced_agrees type_agrees) (.thenSkip
      (.optional (.skipThen _ (spaced_agrees type_agrees))) _))))).map ?_
  rintro ⟨isAsync, first, second⟩ ⟨_, otherFirst, otherSecond⟩
    ⟨(rfl : isAsync = _), firsts, seconds⟩
  refine .collection ⟨rfl, .cons firsts ?_, rfl, .nil⟩
  cases seconds with
  | some both => exact .cons both .nil
  | none => exact .nil

/-- A maplike declaration has a key and a value on both sides. -/
theorem maplikeMember_agrees :
    Agrees refill maplikeMember (Member.Alike refill.wording) :=
  (Expression.Agrees.seq (.present _) (.skipThen _ (.skipThen _ (.seq
    (.thenSkip (spaced_agrees type_agrees) _)
      (.thenSkip (spaced_agrees type_agrees) _))))).map
        fun ⟨readonly, key, value⟩ =>
          .collection ⟨rfl, .cons key (.cons value .nil), readonly, .nil⟩

theorem setlikeMember_agrees :
    Agrees refill setlikeMember (Member.Alike refill.wording) :=
  (Expression.Agrees.seq (.present _) (.skipThen _ (.skipThen _
    (.thenSkip (spaced_agrees type_agrees) _)))).map
      fun ⟨readonly, type⟩ => .collection ⟨rfl, .cons type .nil, readonly, .nil⟩

/-- The word of a qualifier is the same, and only the blank behind it may change. -/
theorem qualifier_agrees : Agrees refill qualifier refill.Requalified := by
  rintro ⟨text, _⟩ ⟨otherText, _⟩
    ⟨⟨source, word⟩, ⟨otherSource, otherWord⟩, ⟨sources, same, otherSame, twin⟩, rfl, rfl⟩
  obtain ⟨_, _, ⟨front, back, otherFront, otherBack, split, otherSplit, wordTwin, blankTwin⟩, -, -⟩
    := twin
  have solid {kind : Token} {text otherText : List Char} (notBlank : kind ≠ .blank)
      (tokens : refill.Tokens kind text otherText) : text = otherText :=
    tokens.resolve_right fun ⟨isBlank, _⟩ => notBlank isBlank
  obtain rfl : front = otherFront := wordTwin.text_eq solid (by decide)
  dsimp only at same otherSame split otherSplit sources ⊢
  rw [split, otherSplit] at sources
  rw [same, otherSame, split, otherSplit]
  rcases blankTwin.1 with rfl | ⟨-, blank, rfl, rfl⟩
  · exact .same _
  · rw [← List.append_assoc, ← List.append_assoc] at sources ⊢
    exact .swap sources

/-- An attribute has its flags from qualifiers that may end in the interval. -/
theorem attributeMember_agrees :
    Agrees refill attributeMember (Member.Alike refill.wording) :=
  (Expression.Agrees.seq (.many qualifier_agrees) (.skipThen _ (.seq (spaced_agrees type_agrees)
    (.thenSkip (spaced_agrees name_agrees) _)))).map
      fun ⟨qualifiers, type, name⟩ =>
        .attribute ⟨name, type, ⟨_, _, qualifiers, rfl, rfl⟩, .nil⟩

/-- An operation keeps its name and its arguments; its qualifier may end in the interval. -/
theorem operationMember_agrees :
    Agrees refill operationMember (Member.Alike refill.wording) :=
  (Expression.Agrees.seq (.many qualifier_agrees) (.seq (spaced_agrees type_agrees)
    (.seq (spaced_agrees (.optional name_agrees))
      (.thenSkip (spaced_agrees parameters_agrees) _)))).map
        fun ⟨qualifiers, type, name, parameters⟩ =>
          .operation ⟨eq_of_rel id name, type, parameters, ⟨_, _, qualifiers, rfl, rfl⟩, .nil⟩

/-- A member agrees with its attributes, and a bare stringifier declares nothing on both sides. -/
theorem member_agrees :
    Agrees refill member (Option.Rel (Member.Alike refill.wording)) := by
  have declared : Agrees refill
      (firstOf constructorMember [constantMember, iterableMember, maplikeMember, setlikeMember,
        attributeMember, operationMember]) (Member.Alike refill.wording) :=
    .choice constructorMember_agrees (.choice constantMember_agrees (.choice iterableMember_agrees
      (.choice maplikeMember_agrees (.choice setlikeMember_agrees
        (.choice attributeMember_agrees operationMember_agrees)))))
  have bare : Agrees refill bareStringifier
      (Option.Rel (Member.Alike refill.wording)) := .map (.any _) fun _ => Option.Rel.none
  refine (attributed_agrees ((declared.map Option.Rel.some).choice bare)).map ?_
  rintro ⟨extAttrs, one⟩ ⟨otherExtAttrs, another⟩ ⟨same, related⟩
  cases related with
  | some alike => exact .some (alike.withExtAttrs same)
  | none => exact .none

/-- What stands between braces agrees item by item. -/
theorem body_agrees (agrees : Agrees refill phrase Related) :
    Agrees refill (body phrase) Related :=
  .skipThen _ (agrees.thenSkip _)

/-- Dropping the items without a value keeps the others paired. -/
theorem forall₂_filterMap {Item : Type} {ItemRelated : Item → Item → Prop}
    {items others : List (Option Item)}
    (related : List.Forall₂ (Option.Rel ItemRelated) items others) :
    List.Forall₂ ItemRelated (items.filterMap id) (others.filterMap id) := by
  induction related with
  | nil => exact .nil
  | cons head _ inductionHypothesis =>
    cases head with
    | some both => exact .cons both inductionHypothesis
    | none => exact inductionHypothesis

/-- The members of a body agree one by one. -/
theorem members_agrees :
    Agrees refill members (List.Forall₂ (Member.Alike refill.wording)) :=
  (body_agrees (.many (spaced_agrees member_agrees))).map forall₂_filterMap

/-! ### Definitions -/

/-- The name of the parent is the same on both sides. -/
theorem inheritance_agrees : Agrees refill inheritance Eq :=
  fun _ _ twin => eq_of_rel id ((Expression.Agrees.skipThen _ name_agrees).optional twin)

/-- Interfaces of all kinds that inherit nothing are read alike. -/
theorem named_agrees {First : Type} (head : Phrase First) (kind : InterfaceKind) :
    Agrees refill
      (.map (fun (name, members) => .interface { name, members, kind })
        (skipThen head (.seq (spaced name) members)))
      (Definition.Alike refill.wording) :=
  (Expression.Agrees.skipThen _ (.seq (spaced_agrees name_agrees) members_agrees)).map
    fun ⟨name, members⟩ => .interface ⟨name, rfl, members, rfl, rfl, .nil⟩

theorem callbackInterface_agrees :
    Agrees refill callbackInterface (Definition.Alike refill.wording) :=
  named_agrees _ .callback

/-- A callback function agrees in its name, its return type and its arguments. -/
theorem callbackFunction_agrees :
    Agrees refill callbackFunction (Definition.Alike refill.wording) :=
  (Expression.Agrees.skipThen _ (.seq (.thenSkip (spaced_agrees name_agrees) _)
    (.seq (spaced_agrees type_agrees) (.thenSkip (spaced_agrees parameters_agrees) _)))).map
      fun ⟨name, type, parameters⟩ => .callback ⟨name, type, parameters, .nil⟩

theorem mixin_agrees : Agrees refill mixin (Definition.Alike refill.wording) :=
  named_agrees _ .mixin

/-- An interface keeps its name and its parent, and its members agree. -/
theorem interface_agrees : Agrees refill interface (Definition.Alike refill.wording) :=
  (Expression.Agrees.skipThen _ (.seq (spaced_agrees name_agrees)
    (.seq (spaced_agrees inheritance_agrees) members_agrees))).map
      fun ⟨name, inheritance, members⟩ =>
        .interface ⟨name, inheritance, members, rfl, rfl, .nil⟩

/-- The members of a namespace agree as those of an interface do. -/
theorem namespaceDefinition_agrees :
    Agrees refill namespaceDefinition (Definition.Alike refill.wording) :=
  named_agrees _ .namespace

/-- A required field has no default on either side. -/
theorem requiredField_agrees :
    Agrees refill requiredField (Field.Alike refill.wording) :=
  (Expression.Agrees.skipThen _ (.seq (spaced_agrees type_agrees)
    (.thenSkip (spaced_agrees name_agrees) _))).map
      fun ⟨type, name⟩ => ⟨name, type, rfl, .none, .nil⟩

/-- A field that is not required has a default on both sides or on neither. -/
theorem optionalField_agrees :
    Agrees refill optionalField (Field.Alike refill.wording) :=
  (Expression.Agrees.seq (spaced_agrees type_agrees) (.seq (spaced_agrees name_agrees)
    (.thenSkip (spaced_agrees (.optional default_agrees)) _))).map
      fun ⟨type, name, default⟩ => ⟨name, type, rfl, default, .nil⟩

/-- A dictionary field agrees, required or with a default. -/
theorem field_agrees : Agrees refill field (Field.Alike refill.wording) :=
  (attributed_agrees (.choice requiredField_agrees optionalField_agrees)).map
    fun ⟨extAttrs, alike⟩ => { alike with extAttrs }

theorem dictionary_agrees : Agrees refill dictionary (Definition.Alike refill.wording) :=
  (Expression.Agrees.skipThen _ (.seq (spaced_agrees name_agrees)
    (.seq (spaced_agrees inheritance_agrees)
      (body_agrees (.many (spaced_agrees field_agrees)))))).map
        fun ⟨name, inheritance, fields⟩ => .dictionary ⟨name, inheritance, fields, rfl, .nil⟩

/-- The values of an enumeration are quoted strings, which no interval cuts. -/
theorem enumerationValue_agrees : Agrees refill enumerationValue Eq :=
  (token_agrees (by decide)).map fun same => congrArg (fun text => String.ofList (inner text)) same

/-- An enumeration has the same values, in the same order. -/
theorem enumeration_agrees :
    Agrees refill enumeration (Definition.Alike refill.wording) :=
  (Expression.Agrees.skipThen _ (.seq (spaced_agrees name_agrees)
    (body_agrees (.thenSkip (.separated comma enumerationValue_agrees) _)))).map
      fun ⟨name, values⟩ => .enumeration ⟨name, eq_of_forall₂ id values, .nil⟩

/-- A type definition keeps its name, and its type is respelled. -/
theorem typedef_agrees : Agrees refill typedef (Definition.Alike refill.wording) :=
  (Expression.Agrees.skipThen _ (.seq (spaced_agrees type_agrees)
    (.thenSkip (spaced_agrees name_agrees) _))).map
      fun ⟨type, name⟩ => .typedef ⟨name, type, .nil⟩

/-- An inclusion names the same target and the same mixin. -/
theorem inclusion_agrees : Agrees refill inclusion (Definition.Alike refill.wording) :=
  (Expression.Agrees.seq (.thenSkip (spaced_agrees name_agrees) _)
    (.thenSkip (spaced_agrees name_agrees) _)).map
      fun ⟨target, mixin⟩ => .inclusion ⟨target, mixin, .nil⟩

/-- Definitions are found that are alike, wherever they stand. -/
def Found.Alike (wording : Wording) (found other : Found) : Prop :=
  found.definition.Alike wording other.definition

/-- Agreement does not look at where a definition stands. -/
theorem located_agrees {definition : Phrase Definition}
    (agrees : Agrees refill definition (Definition.Alike refill.wording)) :
    Agrees refill (located definition) (Found.Alike refill.wording) :=
  agrees.source.map And.right

/-- A partial definition agrees, wherever the word for the part stands. -/
theorem partialDefinition_agrees :
    Agrees refill partialDefinition (Found.Alike refill.wording) :=
  (Expression.Agrees.seq (.any _) (located_agrees (.choice mixin_agrees (.choice interface_agrees
    (.choice dictionary_agrees namespaceDefinition_agrees))))).map
      fun ⟨_, alike⟩ => Definition.Alike.asPartial alike

/-- Every kind of definition agrees with a definition of its own kind. -/
theorem declaration_agrees :
    Agrees refill declaration (Found.Alike refill.wording) :=
  .choice
    (located_agrees (.choice callbackInterface_agrees (.choice callbackFunction_agrees
      (.choice mixin_agrees interface_agrees))))
    (.choice partialDefinition_agrees
      (located_agrees (.choice namespaceDefinition_agrees (.choice dictionary_agrees
        (.choice enumeration_agrees (.choice typedef_agrees inclusion_agrees))))))

/-- A whole definition with its attributes agrees up to respelled types, defaults and attributes. -/
theorem definition_agrees : Agrees refill definition (Found.Alike refill.wording) :=
  (Expression.Agrees.seq (.source (spaced_agrees extAttrs_agrees).optional)
    declaration_agrees).map
      fun ⟨⟨_, extAttrs⟩, alike⟩ => Definition.Alike.withExtAttrs (forall₂_getD extAttrs) alike

end Phrases

end InterfaceAudit.Idl
