import InterfaceAudit.Json.Basic
import InterfaceAudit.Text.Utf8

/-!
Printed JSON.
A layout with an indent breaks lines between items, also when the indent is zero; a layout without
one keeps a value on one line.
-/

namespace InterfaceAudit.Json

structure Layout where
  indent : Option Nat
  ascii : Bool

/-- Documents are indented and keep every character that needs no escape. -/
def Layout.document (indent : Nat) : Layout := ⟨some indent, false⟩

/-- Log lines stand on one line and hold ASCII only. -/
def Layout.logLine : Layout := ⟨none, true⟩

def hexUnit (value : Nat) : List Char :=
  '\\' :: 'u' ::
    [value / 4096 % 16, value / 256 % 16, value / 16 % 16, value % 16].map Text.hexDigit

/-- A character above the basic plane is written as two surrogates. -/
def hexEscape (c : Char) : List Char :=
  if c.toNat < 0x10000 then hexUnit c.toNat
  else hexUnit (0xD7C0 + c.toNat / 0x400) ++ hexUnit (0xDC00 + c.toNat % 0x400)

/-- Quotes, backslashes and control characters are always escaped. -/
def escapeChar (ascii : Bool) (c : Char) : List Char :=
  if c == '\x22' then ['\\', '\x22']
  else if c == '\\' then ['\\', '\\']
  else if c == '\n' then ['\\', 'n']
  else if c == '\r' then ['\\', 'r']
  else if c == '\t' then ['\\', 't']
  else if c == '\x08' then ['\\', 'b']
  else if c == '\x0c' then ['\\', 'f']
  else if c.toNat < 0x20 || (ascii && 0x7E < c.toNat) then hexEscape c
  else [c]

def quoted (ascii : Bool) (text : List Char) : List Char :=
  '\x22' :: text.flatMap (escapeChar ascii) ++ ['\x22']

def Layout.lineBreak (layout : Layout) (level : Nat) : List Char :=
  match layout.indent with
  | some width => '\n' :: List.replicate (level * width) ' '
  | none => []

def Layout.separator (layout : Layout) (level : Nat) : List Char :=
  match layout.indent with
  | some _ => ',' :: layout.lineBreak level
  | none => [',', ' ']

mutual

def render (layout : Layout) (level : Nat) : Json → List Char
  | null => "null".toList
  | bool true => "true".toList
  | bool false => "false".toList
  | int value => (toString value).toList
  | decimal mantissa exponent => (toString mantissa ++ "e" ++ toString exponent).toList
  | notFinite => "NaN".toList
  | string text => quoted layout.ascii text.toList
  | array [] => ['[', ']']
  | array (item :: items) =>
    '[' :: layout.lineBreak (level + 1) ++ render layout (level + 1) item ++
      renderItems layout (level + 1) items ++ layout.lineBreak level ++ [']']
  | object [] => ['{', '}']
  | object ((name, value) :: fields) =>
    '{' :: layout.lineBreak (level + 1) ++ quoted layout.ascii name.toList ++ [':', ' '] ++
      render layout (level + 1) value ++
      renderFields layout (level + 1) fields ++ layout.lineBreak level ++ ['}']

/-- Every item after the first follows a separator. -/
def renderItems (layout : Layout) (level : Nat) : List Json → List Char
  | [] => []
  | item :: items =>
    layout.separator level ++ render layout level item ++ renderItems layout level items

def renderFields (layout : Layout) (level : Nat) : List (String × Json) → List Char
  | [] => []
  | (name, value) :: fields =>
    layout.separator level ++ quoted layout.ascii name.toList ++ [':', ' '] ++
      render layout level value ++ renderFields layout level fields

end

def print (layout : Layout) (value : Json) : String := String.ofList (render layout 0 value)

end InterfaceAudit.Json
