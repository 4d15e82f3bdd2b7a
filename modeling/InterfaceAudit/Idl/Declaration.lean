/-!
Declarations of an interface definition file.
-/

namespace InterfaceAudit.Idl

/-- A span holds the first and the last line of a declaration. -/
structure Span where
  line : Nat
  endLine : Nat
  deriving DecidableEq, Repr

/-- The link fragment of a span names both lines. -/
def Span.fragment (span : Span) : String :=
  "#L" ++ toString span.line ++ "-L" ++ toString span.endLine

structure Argument where
  name : String
  type : String
  isOptional : Bool := false
  isVariadic : Bool := false
  default : Option String := none
  extAttrs : List String := []
  deriving DecidableEq, Repr

/-- An argument is shown as its name and its type. -/
def Argument.signature (argument : Argument) : String :=
  argument.name ++ ": " ++ argument.type ++ (if argument.isVariadic then "..." else "")

structure Attribute where
  name : String
  type : String
  readonly : Bool := false
  isStatic : Bool := false
  inherit : Bool := false
  extAttrs : List String := []
  deriving DecidableEq, Repr

/-- An operation without a name is a special operation; `special` is its qualifier as written. -/
structure Operation where
  name : Option String
  returnType : String
  parameters : List Argument := []
  isStatic : Bool := false
  special : Option String := none
  extAttrs : List String := []
  deriving DecidableEq, Repr

structure Constructor where
  parameters : List Argument := []
  extAttrs : List String := []
  deriving DecidableEq, Repr

structure Constant where
  name : String
  type : String
  value : String
  extAttrs : List String := []
  deriving DecidableEq, Repr

inductive CollectionKind where
  | iterable | asyncIterable | maplike | setlike
  deriving DecidableEq, Repr

def CollectionKind.spelling : CollectionKind → String
  | .iterable => "iterable"
  | .asyncIterable => "async iterable"
  | .maplike => "maplike"
  | .setlike => "setlike"

structure Collection where
  kind : CollectionKind
  types : List String := []
  readonly : Bool := false
  extAttrs : List String := []
  deriving DecidableEq, Repr

inductive Member where
  | «attribute» (member : Attribute)
  | operation (member : Operation)
  | constructor (member : Constructor)
  | constant (member : Constant)
  | collection (member : Collection)
  deriving DecidableEq, Repr

def Member.withExtAttrs (extAttrs : List String) : Member → Member
  | .attribute member => .attribute { member with extAttrs }
  | .operation member => .operation { member with extAttrs }
  | .constructor member => .constructor { member with extAttrs }
  | .constant member => .constant { member with extAttrs }
  | .collection member => .collection { member with extAttrs }

inductive InterfaceKind where
  | plain | mixin | callback | «namespace»
  deriving DecidableEq, Repr

structure Interface where
  name : String
  inheritance : Option String := none
  members : List Member := []
  kind : InterfaceKind := .plain
  isPartial : Bool := false
  extAttrs : List String := []
  span : Option Span := none
  deriving DecidableEq, Repr

/-- A primary interface is a complete declaration of a plain interface. -/
def Interface.isPrimary (interface : Interface) : Bool :=
  interface.kind == .plain && !interface.isPartial

structure Field where
  name : String
  type : String
  required : Bool := false
  default : Option String := none
  extAttrs : List String := []
  deriving DecidableEq, Repr

structure Dictionary where
  name : String
  inheritance : Option String := none
  fields : List Field := []
  isPartial : Bool := false
  extAttrs : List String := []
  span : Option Span := none
  deriving DecidableEq, Repr

structure Enumeration where
  name : String
  values : List String := []
  extAttrs : List String := []
  span : Option Span := none
  deriving DecidableEq, Repr

structure Callback where
  name : String
  returnType : String
  parameters : List Argument := []
  extAttrs : List String := []
  span : Option Span := none
  deriving DecidableEq, Repr

structure Typedef where
  name : String
  type : String
  extAttrs : List String := []
  span : Option Span := none
  deriving DecidableEq, Repr

/-- The target takes over the members of the mixin. -/
structure Inclusion where
  target : String
  mixin : String
  extAttrs : List String := []
  span : Option Span := none
  deriving DecidableEq, Repr

inductive Definition where
  | interface (definition : Interface)
  | dictionary (definition : Dictionary)
  | enumeration (definition : Enumeration)
  | callback (definition : Callback)
  | typedef (definition : Typedef)
  | inclusion (definition : Inclusion)
  deriving DecidableEq, Repr

def Definition.withExtAttrs (extAttrs : List String) : Definition → Definition
  | .interface definition => .interface { definition with extAttrs }
  | .dictionary definition => .dictionary { definition with extAttrs }
  | .enumeration definition => .enumeration { definition with extAttrs }
  | .callback definition => .callback { definition with extAttrs }
  | .typedef definition => .typedef { definition with extAttrs }
  | .inclusion definition => .inclusion { definition with extAttrs }

def Definition.withSpan (span : Option Span) : Definition → Definition
  | .interface definition => .interface { definition with span }
  | .dictionary definition => .dictionary { definition with span }
  | .enumeration definition => .enumeration { definition with span }
  | .callback definition => .callback { definition with span }
  | .typedef definition => .typedef { definition with span }
  | .inclusion definition => .inclusion { definition with span }

def Definition.span : Definition → Option Span
  | .interface definition => definition.span
  | .dictionary definition => definition.span
  | .enumeration definition => definition.span
  | .callback definition => definition.span
  | .typedef definition => definition.span
  | .inclusion definition => definition.span

/-- Only interfaces and dictionaries come in parts. -/
def Definition.asPartial : Definition → Definition
  | .interface definition => .interface { definition with isPartial := true }
  | .dictionary definition => .dictionary { definition with isPartial := true }
  | definition => definition

end InterfaceAudit.Idl
