import InterfaceAudit.Json.Basic
import InterfaceAudit.Text.CharClass

/-!
Reading JSON.
The reader accepts one value with spaces around it, and the three names of numbers that are not
finite.
-/

namespace InterfaceAudit.Json

def isSpace (c : Char) : Bool := c == ' ' || c == '\t' || c == '\n' || c == '\r'

def skip (text : List Char) : List Char := text.dropWhile isSpace

def hexValue? (c : Char) : Option Nat :=
  if Text.isAsciiDigit c then some (c.toNat - 48)
  else if 'a' ≤ c && c ≤ 'f' then some (c.toNat - 87)
  else if 'A' ≤ c && c ≤ 'F' then some (c.toNat - 55)
  else none

def readUnit : List Char → Option (Nat × List Char)
  | a :: b :: c :: d :: rest => do
    let a ← hexValue? a
    let b ← hexValue? b
    let c ← hexValue? c
    let d ← hexValue? d
    return (a * 4096 + b * 256 + c * 16 + d, rest)
  | _ => none

def isHighSurrogate (unit : Nat) : Bool := 0xD800 ≤ unit && unit ≤ 0xDBFF

def isLowSurrogate (unit : Nat) : Bool := 0xDC00 ≤ unit && unit ≤ 0xDFFF

/-- A surrogate without its partner stands for the replacement character. -/
def unitChar (unit : Nat) : Char :=
  if isHighSurrogate unit || isLowSurrogate unit then Char.ofNat 0xFFFD else Char.ofNat unit

/-- A pair of surrogates stands for one character. -/
def readEscapedUnit (text : List Char) : Option (Char × List Char) := do
  let (unit, rest) ← readUnit text
  match isHighSurrogate unit, rest with
  | true, '\\' :: 'u' :: after =>
    match readUnit after with
    | some (second, afterSecond) =>
      if isLowSurrogate second then
        return (Char.ofNat (0x10000 + (unit - 0xD800) * 0x400 + (second - 0xDC00)), afterSecond)
      else return (unitChar unit, rest)
    | none => return (unitChar unit, rest)
  | _, _ => return (unitChar unit, rest)

def simpleEscape? (c : Char) : Option Char :=
  if c == '\x22' || c == '\\' || c == '/' then some c
  else if c == 'b' then some '\x08'
  else if c == 'f' then some '\x0c'
  else if c == 'n' then some '\n'
  else if c == 'r' then some '\r'
  else if c == 't' then some '\t'
  else none

/-- The text begins after the opening quote. -/
def readQuoted : Nat → List Char → List Char → Option (List Char × List Char)
  | 0, _, _ => none
  | fuel + 1, output, text =>
    match text with
    | [] => none
    | '\\' :: 'u' :: rest => do
      let (c, rest) ← readEscapedUnit rest
      readQuoted fuel (c :: output) rest
    | '\\' :: c :: rest => do
      let c ← simpleEscape? c
      readQuoted fuel (c :: output) rest
    | c :: rest =>
      if c == '\x22' then some (output.reverse, rest)
      else if c.toNat < 0x20 || c == '\\' then none
      else readQuoted fuel (c :: output) rest

def digitsValue (digits : List Char) : Nat :=
  digits.foldl (fun value digit => value * 10 + (digit.toNat - 48)) 0

/-- The digits of a whole part have no leading zero. -/
def readWhole (text : List Char) : Option (List Char × List Char) :=
  match text with
  | '0' :: rest => some (['0'], rest)
  | _ =>
    match text.takeWhile Text.isAsciiDigit with
    | [] => none
    | digits => some (digits, text.dropWhile Text.isAsciiDigit)

def readFraction (text : List Char) : List Char × List Char :=
  match text with
  | '.' :: rest =>
    match rest.takeWhile Text.isAsciiDigit with
    | [] => ([], text)
    | digits => (digits, rest.dropWhile Text.isAsciiDigit)
  | _ => ([], text)

def readExponent (text : List Char) : Option Int × List Char :=
  let signed (negative : Bool) (rest : List Char) : Option Int × List Char :=
    match rest.takeWhile Text.isAsciiDigit with
    | [] => (none, text)
    | digits =>
      let value : Int := digitsValue digits
      (some (if negative then -value else value), rest.dropWhile Text.isAsciiDigit)
  match text with
  | e :: rest =>
    if e == 'e' || e == 'E' then
      match rest with
      | '-' :: after => signed true after
      | '+' :: after => signed false after
      | _ => signed false rest
    else (none, text)
  | [] => (none, text)

def readNumber (text : List Char) : Option (Json × List Char) := do
  let (negative, start) := match text with
    | '-' :: rest => (true, rest)
    | _ => (false, text)
  let (whole, afterWhole) ← readWhole start
  let (fraction, afterFraction) := readFraction afterWhole
  let (exponent, rest) := readExponent afterFraction
  let magnitude : Int := digitsValue (whole ++ fraction)
  let mantissa := if negative then -magnitude else magnitude
  if fraction.isEmpty && exponent.isNone then return (int mantissa, rest)
  else return (decimal mantissa (exponent.getD 0 - fraction.length), rest)

/-- A name stands for a value when the text begins with it. -/
def readName (text : List Char) : Option (Json × List Char) :=
  let names : List (String × Json) :=
    [("null", null), ("true", bool true), ("false", bool false), ("NaN", notFinite),
      ("Infinity", notFinite), ("-Infinity", notFinite)]
  names.findSome? fun (name, value) =>
    if name.toList.isPrefixOf text then some (value, text.drop name.length) else none

/-- Items follow each other with commas between them, up to the closing bracket. -/
def readItems (read : List Char → Option (Json × List Char)) :
    Nat → List Char → Option (List Json × List Char)
  | 0, _ => none
  | fuel + 1, text => do
    let (item, rest) ← read (skip text)
    match skip rest with
    | ',' :: rest =>
      let (items, rest) ← readItems read fuel rest
      return (item :: items, rest)
    | ']' :: rest => return ([item], rest)
    | _ => none

def readFields (read : List Char → Option (Json × List Char)) :
    Nat → List (String × Json) → List Char → Option (List (String × Json) × List Char)
  | 0, _, _ => none
  | fuel + 1, fields, text => do
    match skip text with
    | '\x22' :: rest =>
      let (name, rest) ← readQuoted (rest.length + 1) [] rest
      match skip rest with
      | ':' :: rest =>
        let (value, rest) ← read (skip rest)
        let fields := setField fields (String.ofList name) value
        match skip rest with
        | ',' :: rest => readFields read fuel fields rest
        | '}' :: rest => return (fields, rest)
        | _ => none
      | _ => none
    | _ => none

/-- The fuel bounds the depth of the value. -/
def readValue : Nat → List Char → Option (Json × List Char)
  | 0, _ => none
  | fuel + 1, text =>
    match text with
    | '\x22' :: rest => do
      let (content, rest) ← readQuoted (rest.length + 1) [] rest
      return (string (String.ofList content), rest)
    | '[' :: rest =>
      match skip rest with
      | ']' :: rest => some (array [], rest)
      | _ => (readItems (readValue fuel) (rest.length + 1) rest).map fun (items, rest) =>
          (array items, rest)
    | '{' :: rest =>
      match skip rest with
      | '}' :: rest => some (object [], rest)
      | _ => (readFields (readValue fuel) (rest.length + 1) [] rest).map fun (fields, rest) =>
          (object fields, rest)
    | _ => (readName text).or (readNumber text)

/-- The whole text is one value. -/
def read? (text : String) : Option Json :=
  let text := text.toList
  match readValue (text.length + 1) (skip text) with
  | some (value, rest) => if (skip rest).isEmpty then some value else none
  | none => none

end InterfaceAudit.Json
