/-!
JSON values.
-/

namespace InterfaceAudit

/-- A number written without point and exponent is an integer.
Any other finite number is the mantissa times ten to the exponent. -/
inductive Json where
  | null
  | bool (value : Bool)
  | int (value : Int)
  | decimal (mantissa exponent : Int)
  | notFinite
  | string (text : String)
  | array (items : List Json)
  | object (fields : List (String × Json))
  deriving Inhabited, Repr

namespace Json

def field? (name : String) : Json → Option Json
  | object fields => (fields.find? fun field => field.1 == name).map Prod.snd
  | _ => none

/-- Fields without a value are left out. -/
def ofFields (fields : List (String × Option Json)) : Json :=
  object (fields.filterMap fun (name, value) => value.map fun value => (name, value))

def nat (value : Nat) : Json := int value

def strings (texts : List String) : Json := array (texts.map string)

/-- A name that is set again keeps its place and takes the new value. -/
def setField (fields : List (String × Json)) (name : String) (value : Json) :
    List (String × Json) :=
  if fields.any fun field => field.1 == name then
    fields.map fun field => (field.1, if field.1 == name then value else field.2)
  else
    fields ++ [(name, value)]

def setFields (lower upper : List (String × Json)) : List (String × Json) :=
  upper.foldl (fun fields field => setField fields field.1 field.2) lower

/-- Upper fields replace lower ones, and an object over an object sets its fields. -/
def overlay (lower upper : List (String × Json)) : List (String × Json) :=
  upper.foldl (fun fields (name, value) =>
    match (object fields).field? name, value with
    | some (object below), object above => setField fields name (object (setFields below above))
    | _, _ => setField fields name value) lower

end Json

end InterfaceAudit
