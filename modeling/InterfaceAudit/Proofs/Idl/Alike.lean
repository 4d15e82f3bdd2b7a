import InterfaceAudit.Idl.Declaration
import Mathlib.Data.List.Forall2

/-!
Declarations that are alike: they have the same kinds, names and parts, and they differ at most in
how their types, defaults, extended attributes and qualifiers are worded.
-/

namespace InterfaceAudit.Idl

/-- Which strings may stand for each other: those of types, defaults and extended attributes, and
those of qualifiers. -/
structure Wording where
  spelled : String → String → Prop
  qualified : String → String → Prop

/-- A wording is exact when only equal strings stand for each other. -/
structure Wording.Exact (wording : Wording) : Prop where
  spelled : ∀ {text other}, wording.spelled text other → text = other
  qualified : ∀ {text other}, wording.qualified text other → text = other

/-- Lists are equal when they are related by something that only equal items are. -/
theorem eq_of_forall₂ {Item : Type} {Related : Item → Item → Prop} {items others : List Item}
    (eq : ∀ {item other}, Related item other → item = other)
    (related : List.Forall₂ Related items others) : items = others := by
  induction related with
  | nil => rfl
  | cons head _ inductionHypothesis => rw [eq head, inductionHypothesis]

/-- Optional values are equal when they are related by something that only equal values are. -/
theorem eq_of_rel {Item : Type} {Related : Item → Item → Prop} {item other : Option Item}
    (eq : ∀ {item other}, Related item other → item = other)
    (related : Option.Rel Related item other) : item = other := by
  cases related with
  | some both => rw [eq both]
  | none => rfl

/-- What is read from qualifiers is read from lists that are worded alike. -/
def Wording.Qualified (wording : Wording) {Flags : Type} (read : List String → Flags)
    (flags otherFlags : Flags) : Prop :=
  ∃ qualifiers otherQualifiers, List.Forall₂ wording.qualified qualifiers otherQualifiers ∧
    flags = read qualifiers ∧ otherFlags = read otherQualifiers

/-- Flags that are read from equal qualifiers are equal. -/
theorem Wording.Exact.qualified_eq {wording : Wording} (exact : wording.Exact) {Flags : Type}
    {read : List String → Flags} {flags otherFlags : Flags}
    (alike : wording.Qualified read flags otherFlags) : flags = otherFlags := by
  obtain ⟨qualifiers, otherQualifiers, qualified, rfl, rfl⟩ := alike
  rw [eq_of_forall₂ exact.qualified qualified]

/-- An attribute is read-only, static or inherited by its qualifiers. -/
def attributeFlags (qualifiers : List String) : Bool × Bool × Bool :=
  (qualifiers.contains "readonly", qualifiers.contains "static", qualifiers.contains "inherit")

/-- An operation is static or special by its qualifiers. -/
def operationFlags (qualifiers : List String) : Bool × Option String :=
  (qualifiers.contains "static", qualifiers.find? (· != "static"))

section Relations

variable (wording : Wording)

structure Argument.Alike (one other : Argument) : Prop where
  name : one.name = other.name
  type : wording.spelled one.type other.type
  isOptional : one.isOptional = other.isOptional
  isVariadic : one.isVariadic = other.isVariadic
  default : Option.Rel wording.spelled one.default other.default
  extAttrs : List.Forall₂ wording.spelled one.extAttrs other.extAttrs

structure Attribute.Alike (one other : Attribute) : Prop where
  name : one.name = other.name
  type : wording.spelled one.type other.type
  flags : wording.Qualified attributeFlags (one.readonly, one.isStatic, one.inherit)
    (other.readonly, other.isStatic, other.inherit)
  extAttrs : List.Forall₂ wording.spelled one.extAttrs other.extAttrs

structure Operation.Alike (one other : Operation) : Prop where
  name : one.name = other.name
  returnType : wording.spelled one.returnType other.returnType
  parameters : List.Forall₂ (Argument.Alike wording) one.parameters other.parameters
  flags : wording.Qualified operationFlags (one.isStatic, one.special)
    (other.isStatic, other.special)
  extAttrs : List.Forall₂ wording.spelled one.extAttrs other.extAttrs

structure Constructor.Alike (one other : Constructor) : Prop where
  parameters : List.Forall₂ (Argument.Alike wording) one.parameters other.parameters
  extAttrs : List.Forall₂ wording.spelled one.extAttrs other.extAttrs

structure Constant.Alike (one other : Constant) : Prop where
  name : one.name = other.name
  type : wording.spelled one.type other.type
  value : one.value = other.value
  extAttrs : List.Forall₂ wording.spelled one.extAttrs other.extAttrs

structure Collection.Alike (one other : Collection) : Prop where
  kind : one.kind = other.kind
  types : List.Forall₂ wording.spelled one.types other.types
  readonly : one.readonly = other.readonly
  extAttrs : List.Forall₂ wording.spelled one.extAttrs other.extAttrs

/-- Members of the same kind are alike. -/
inductive Member.Alike : Member → Member → Prop
  | «attribute» {one other : Attribute} (alike : one.Alike wording other) :
      Member.Alike (.attribute one) (.attribute other)
  | operation {one other : Operation} (alike : one.Alike wording other) :
      Member.Alike (.operation one) (.operation other)
  | constructor {one other : Constructor} (alike : one.Alike wording other) :
      Member.Alike (.constructor one) (.constructor other)
  | constant {one other : Constant} (alike : one.Alike wording other) :
      Member.Alike (.constant one) (.constant other)
  | collection {one other : Collection} (alike : one.Alike wording other) :
      Member.Alike (.collection one) (.collection other)

structure Interface.Alike (one other : Interface) : Prop where
  name : one.name = other.name
  inheritance : one.inheritance = other.inheritance
  members : List.Forall₂ (Member.Alike wording) one.members other.members
  kind : one.kind = other.kind
  isPartial : one.isPartial = other.isPartial
  extAttrs : List.Forall₂ wording.spelled one.extAttrs other.extAttrs

structure Field.Alike (one other : Field) : Prop where
  name : one.name = other.name
  type : wording.spelled one.type other.type
  required : one.required = other.required
  default : Option.Rel wording.spelled one.default other.default
  extAttrs : List.Forall₂ wording.spelled one.extAttrs other.extAttrs

structure Dictionary.Alike (one other : Dictionary) : Prop where
  name : one.name = other.name
  inheritance : one.inheritance = other.inheritance
  fields : List.Forall₂ (Field.Alike wording) one.fields other.fields
  isPartial : one.isPartial = other.isPartial
  extAttrs : List.Forall₂ wording.spelled one.extAttrs other.extAttrs

structure Enumeration.Alike (one other : Enumeration) : Prop where
  name : one.name = other.name
  values : one.values = other.values
  extAttrs : List.Forall₂ wording.spelled one.extAttrs other.extAttrs

structure Callback.Alike (one other : Callback) : Prop where
  name : one.name = other.name
  returnType : wording.spelled one.returnType other.returnType
  parameters : List.Forall₂ (Argument.Alike wording) one.parameters other.parameters
  extAttrs : List.Forall₂ wording.spelled one.extAttrs other.extAttrs

structure Typedef.Alike (one other : Typedef) : Prop where
  name : one.name = other.name
  type : wording.spelled one.type other.type
  extAttrs : List.Forall₂ wording.spelled one.extAttrs other.extAttrs

structure Inclusion.Alike (one other : Inclusion) : Prop where
  target : one.target = other.target
  mixin : one.mixin = other.mixin
  extAttrs : List.Forall₂ wording.spelled one.extAttrs other.extAttrs

/-- Definitions of the same kind are alike wherever they stand. -/
inductive Definition.Alike : Definition → Definition → Prop
  | interface {one other : Interface} (alike : one.Alike wording other) :
      Definition.Alike (.interface one) (.interface other)
  | dictionary {one other : Dictionary} (alike : one.Alike wording other) :
      Definition.Alike (.dictionary one) (.dictionary other)
  | enumeration {one other : Enumeration} (alike : one.Alike wording other) :
      Definition.Alike (.enumeration one) (.enumeration other)
  | callback {one other : Callback} (alike : one.Alike wording other) :
      Definition.Alike (.callback one) (.callback other)
  | typedef {one other : Typedef} (alike : one.Alike wording other) :
      Definition.Alike (.typedef one) (.typedef other)
  | inclusion {one other : Inclusion} (alike : one.Alike wording other) :
      Definition.Alike (.inclusion one) (.inclusion other)

end Relations

section Changes

variable {wording : Wording} {extAttrs otherExtAttrs : List String}

/-- Alike members stay alike under attributes that are worded alike. -/
theorem Member.Alike.withExtAttrs (same : List.Forall₂ wording.spelled extAttrs otherExtAttrs)
    {one other : Member} (alike : one.Alike wording other) :
    (one.withExtAttrs extAttrs).Alike wording (other.withExtAttrs otherExtAttrs) := by
  cases alike with
  | «attribute» alike => exact .attribute { alike with extAttrs := same }
  | operation alike => exact .operation { alike with extAttrs := same }
  | constructor alike => exact .constructor { alike with extAttrs := same }
  | constant alike => exact .constant { alike with extAttrs := same }
  | collection alike => exact .collection { alike with extAttrs := same }

/-- Alike definitions stay alike under attributes that are worded alike. -/
theorem Definition.Alike.withExtAttrs
    (same : List.Forall₂ wording.spelled extAttrs otherExtAttrs) {one other : Definition}
    (alike : one.Alike wording other) :
    (one.withExtAttrs extAttrs).Alike wording (other.withExtAttrs otherExtAttrs) := by
  cases alike with
  | interface alike => exact .interface { alike with extAttrs := same }
  | dictionary alike => exact .dictionary { alike with extAttrs := same }
  | enumeration alike => exact .enumeration { alike with extAttrs := same }
  | callback alike => exact .callback { alike with extAttrs := same }
  | typedef alike => exact .typedef { alike with extAttrs := same }
  | inclusion alike => exact .inclusion { alike with extAttrs := same }

/-- Marking both definitions as partial keeps them alike. -/
theorem Definition.Alike.asPartial {one other : Definition} (alike : one.Alike wording other) :
    one.asPartial.Alike wording other.asPartial := by
  cases alike with
  | interface alike => exact .interface { alike with isPartial := rfl }
  | dictionary alike => exact .dictionary { alike with isPartial := rfl }
  | enumeration alike => exact .enumeration alike
  | callback alike => exact .callback alike
  | typedef alike => exact .typedef alike
  | inclusion alike => exact .inclusion alike

/-- Definitions are alike wherever they stand. -/
theorem Definition.Alike.withSpan (span otherSpan : Option Span) {one other : Definition}
    (alike : one.Alike wording other) :
    (one.withSpan span).Alike wording (other.withSpan otherSpan) := by
  cases alike with
  | interface alike => exact .interface { alike with }
  | dictionary alike => exact .dictionary { alike with }
  | enumeration alike => exact .enumeration { alike with }
  | callback alike => exact .callback { alike with }
  | typedef alike => exact .typedef { alike with }
  | inclusion alike => exact .inclusion { alike with }

end Changes

/-! ### Exact wordings -/

section Exact

variable {wording : Wording} (exact : wording.Exact)

include exact

/-- Arguments that differ in no wording are equal. -/
theorem Argument.Alike.eq {one other : Argument} (alike : one.Alike wording other) :
    one = other := by
  cases one
  cases other
  obtain ⟨rfl, type, rfl, rfl, default, extAttrs⟩ := alike
  obtain rfl := exact.spelled type
  obtain rfl := eq_of_rel exact.spelled default
  obtain rfl := eq_of_forall₂ exact.spelled extAttrs
  rfl

/-- Members that differ in no wording are equal, kind by kind. -/
theorem Member.Alike.eq {one other : Member} (alike : one.Alike wording other) : one = other := by
  cases alike with
  | @«attribute» one other alike =>
    cases one
    cases other
    obtain ⟨rfl, type, flags, extAttrs⟩ := alike
    obtain rfl := exact.spelled type
    cases exact.qualified_eq flags
    obtain rfl := eq_of_forall₂ exact.spelled extAttrs
    rfl
  | @operation one other alike =>
    cases one
    cases other
    obtain ⟨rfl, returnType, parameters, flags, extAttrs⟩ := alike
    obtain rfl := exact.spelled returnType
    obtain rfl := eq_of_forall₂ (Argument.Alike.eq exact) parameters
    cases exact.qualified_eq flags
    obtain rfl := eq_of_forall₂ exact.spelled extAttrs
    rfl
  | @constructor one other alike =>
    cases one
    cases other
    obtain ⟨parameters, extAttrs⟩ := alike
    obtain rfl := eq_of_forall₂ (Argument.Alike.eq exact) parameters
    obtain rfl := eq_of_forall₂ exact.spelled extAttrs
    rfl
  | @constant one other alike =>
    cases one
    cases other
    obtain ⟨rfl, type, rfl, extAttrs⟩ := alike
    obtain rfl := exact.spelled type
    obtain rfl := eq_of_forall₂ exact.spelled extAttrs
    rfl
  | @collection one other alike =>
    cases one
    cases other
    obtain ⟨rfl, types, rfl, extAttrs⟩ := alike
    obtain rfl := eq_of_forall₂ exact.spelled types
    obtain rfl := eq_of_forall₂ exact.spelled extAttrs
    rfl

/-- Dictionary fields that differ in no wording are equal. -/
theorem Field.Alike.eq {one other : Field} (alike : one.Alike wording other) : one = other := by
  cases one
  cases other
  obtain ⟨rfl, type, rfl, default, extAttrs⟩ := alike
  obtain rfl := exact.spelled type
  obtain rfl := eq_of_rel exact.spelled default
  obtain rfl := eq_of_forall₂ exact.spelled extAttrs
  rfl

/-- Definitions that are worded exactly alike differ at most in where they stand. -/
theorem Definition.Alike.eq {one other : Definition} (alike : one.Alike wording other) :
    one.withSpan none = other.withSpan none := by
  cases alike with
  | @interface one other alike =>
    cases one
    cases other
    obtain ⟨rfl, rfl, members, rfl, rfl, extAttrs⟩ := alike
    obtain rfl := eq_of_forall₂ (Member.Alike.eq exact) members
    obtain rfl := eq_of_forall₂ exact.spelled extAttrs
    rfl
  | @dictionary one other alike =>
    cases one
    cases other
    obtain ⟨rfl, rfl, fields, rfl, extAttrs⟩ := alike
    obtain rfl := eq_of_forall₂ (Field.Alike.eq exact) fields
    obtain rfl := eq_of_forall₂ exact.spelled extAttrs
    rfl
  | @enumeration one other alike =>
    cases one
    cases other
    obtain ⟨rfl, rfl, extAttrs⟩ := alike
    obtain rfl := eq_of_forall₂ exact.spelled extAttrs
    rfl
  | @callback one other alike =>
    cases one
    cases other
    obtain ⟨rfl, returnType, parameters, extAttrs⟩ := alike
    obtain rfl := exact.spelled returnType
    obtain rfl := eq_of_forall₂ (Argument.Alike.eq exact) parameters
    obtain rfl := eq_of_forall₂ exact.spelled extAttrs
    rfl
  | @typedef one other alike =>
    cases one
    cases other
    obtain ⟨rfl, type, extAttrs⟩ := alike
    obtain rfl := exact.spelled type
    obtain rfl := eq_of_forall₂ exact.spelled extAttrs
    rfl
  | @inclusion one other alike =>
    cases one
    cases other
    obtain ⟨rfl, rfl, extAttrs⟩ := alike
    obtain rfl := eq_of_forall₂ exact.spelled extAttrs
    rfl

end Exact

end InterfaceAudit.Idl
