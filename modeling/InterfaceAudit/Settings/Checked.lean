import InterfaceAudit.Json.Basic
import InterfaceAudit.Settings.Basic
import InterfaceAudit.Text.CharClass

/-!
Checked values: a value is read from JSON, or the places are named where it has a fault.

The faults, their words and the way from JSON to a text, a path, a number or one of several words
are the documented checks of the settings package. The program's own part is `listed`: it reads a
text in place of a list, in front of the check for lists.
-/

namespace InterfaceAudit.Settings

/-- A place inside a value is a path of names and positions. -/
inductive Key where
  | name (text : String)
  | position (index : Nat)
  deriving DecidableEq, Repr

inductive Fault where
  | notList
  | notText
  | notNumber
  | unreadableNumber
  | fractionalNumber
  | endlessNumber
  | tooSmall
  | tooLarge
  | notOffered
  | notPath
  | notSection
  | unknownSetting
  | unusable
  deriving DecidableEq, Repr

/-- The word for a fault in reports, as the package has it. -/
def Fault.code : Fault → String
  | .notList => "list_type"
  | .notText => "string_type"
  | .notNumber => "int_type"
  | .unreadableNumber => "int_parsing"
  | .fractionalNumber => "int_from_float"
  | .endlessNumber => "finite_number"
  | .tooSmall => "greater_than_equal"
  | .tooLarge => "less_than_equal"
  | .notOffered => "literal_error"
  | .notPath => "path_type"
  | .notSection => "model_type"
  | .unknownSetting => "extra_forbidden"
  | .unusable => "value_error"

structure Finding where
  place : List Key
  fault : Fault
  deriving DecidableEq, Repr

/-- All faults of a value are found before it is given up. -/
inductive Checked (Value : Type) where
  | valid (value : Value)
  | faulty (findings : List Finding)

namespace Checked

variable {Value Result : Type}

/-- Findings are listed in the order of the parts. -/
def apply (build : Checked (Value → Result)) (part : Unit → Checked Value) : Checked Result :=
  match build, part () with
  | .valid build, .valid value => .valid (build value)
  | .valid _, .faulty findings => .faulty findings
  | .faulty findings, .valid _ => .faulty findings
  | .faulty first, .faulty second => .faulty (first ++ second)

instance : Applicative Checked where
  pure := .valid
  seq := apply

def fault (fault : Fault) : Checked Value := .faulty [⟨[], fault⟩]

/-- A finding inside a part is placed under the key of the part. -/
def under (key : Key) : Checked Value → Checked Value
  | .valid value => .valid value
  | .faulty findings =>
    .faulty (findings.map fun finding => { finding with place := key :: finding.place })

end Checked

/-! ### Values -/

def readText : Json → Checked String
  | .string text => .valid text
  | _ => .fault .notText

def readPath : Json → Checked Path
  | .string text => .valid (.ofString text)
  | _ => .fault .notPath

def readTexts (position : Nat) : List Json → Checked (List String)
  | [] => .valid []
  | item :: others =>
    List.cons <$> (readText item).under (.position position) <*> readTexts (position + 1) others

/-- A text is a list of the parts between commas, without blanks around them and without empty
parts. -/
def listed (text : String) : List String :=
  (((Text.splitOn ',' text.toList).map Text.trim).filter (· ≠ [])).map String.ofList

/-- The program lists a text itself; anything else is left to the check of the package, which wants
a list of texts. -/
def readList : Json → Checked (List String)
  | .string text => .valid (listed text)
  | .array items => readTexts 0 items
  | _ => .fault .notList

/-- A number may be written with a sign, and single underscores may separate its digits. -/
def readDigits (digits : List Char) : Option Nat :=
  if digits.head?.all (· == '_') || digits.getLast? == some '_' then none
  else
    digits.foldl (fun (state : Option (Nat × Bool)) c =>
      state.bind fun (value, afterUnderscore) =>
        if c == '_' then if afterUnderscore then none else some (value, true)
        else if Text.isAsciiDigit c then some (value * 10 + (c.toNat - 48), false)
        else none) (some (0, false)) |>.map Prod.fst

/-- Zeros behind a point do not count. -/
def withoutZeroFraction (text : List Char) : List Char :=
  let whole := text.takeWhile (· ≠ '.')
  if (text.drop (whole.length + 1)).all (· == '0') then whole else text

def readSigned (text : String) : Option Int :=
  match withoutZeroFraction (Text.trimWhile Text.isWhiteSpace text.toList) with
  | '-' :: digits => (readDigits digits).map fun value => -(value : Int)
  | '+' :: digits => (readDigits digits).map Int.ofNat
  | digits => (readDigits digits).map Int.ofNat

/-- A fraction is whole when its digits behind the point are zeros. -/
def wholeDecimal? (mantissa exponent : Int) : Option Int :=
  if 0 ≤ exponent then some (mantissa * Int.pow 10 exponent.toNat)
  else
    let scale := Int.pow 10 (-exponent).toNat
    if mantissa % scale = 0 then some (mantissa / scale) else none

/-- By the rules of the package a number may be given as a truth value, as a decimal without a
fraction or as a text. -/
def readNumber : Json → Checked Int
  | .int value => .valid value
  | .bool value => .valid (if value then 1 else 0)
  | .decimal mantissa exponent =>
    match wholeDecimal? mantissa exponent with
    | some value => .valid value
    | none => .fault .fractionalNumber
  | .notFinite => .fault .endlessNumber
  | .string text =>
    match readSigned text with
    | some value => .valid value
    | none => .fault .unreadableNumber
  | _ => .fault .notNumber

def readLimited (limits : Limits) (value : Json) : Checked (Limited limits) :=
  match readNumber value with
  | .faulty findings => .faulty findings
  | .valid number =>
    if admitted : 0 ≤ number ∧ limits.Admits number.toNat then
      .valid ⟨number.toNat, admitted.2⟩
    else if number < limits.least then .fault .tooSmall
    else .fault .tooLarge

def readPolicy : Json → Checked MissingSymbolPolicy
  | .string "first" => .valid .first
  | .string "all" => .valid .all
  | _ => .fault .notOffered

/-! ### Fields -/

/-- A field that is not given has its default. -/
def field {Value : Type} (fields : List (String × Json)) (name : String)
    (read : Json → Checked Value) (default : Value) : Checked Value :=
  match (Json.object fields).field? name with
  | some value => (read value).under (.name name)
  | none => .valid default

/-- A section has no fields beside its own. -/
def othersIn (fields : List (String × Json)) (known : List String) : Checked Unit :=
  match (fields.map Prod.fst).filter fun name => !known.contains name with
  | [] => .valid ()
  | others => .faulty (others.map fun name => ⟨[.name name], .unknownSetting⟩)

end InterfaceAudit.Settings
