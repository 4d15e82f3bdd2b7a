import InterfaceAudit.Text.CaseTable
import InterfaceAudit.Text.CharClass

/-!
Full case mapping: one character may map to several, and a capital sigma at the end of a word has a
lower case form of its own.
-/

namespace InterfaceAudit.Text

/-- The run that covers a code point gives its image. -/
def caseImage (runs : List (Nat × Nat × Nat × Int)) (c : Char) : Char :=
  match runs.find? fun (first, last, stride, _) =>
      first ≤ c.toNat && c.toNat ≤ last && (c.toNat - first) % stride == 0 with
  | some (_, _, _, offset) => Char.ofNat ((c.toNat : Int) + offset).toNat
  | none => c

/-- A capital letter maps to its small letter, and ASCII needs no table. -/
def lowerChar (c : Char) : List Char :=
  if c.toNat < 128 then [if isUpper c then Char.ofNat (c.toNat + 32) else c]
  else if c.toNat == 0x130 then ['i', Char.ofNat 0x307]
  else [caseImage lowerRuns c]

def upperChar (c : Char) : List Char :=
  if c.toNat < 128 then [if isLower c then Char.ofNat (c.toNat - 32) else c]
  else
    match upperExpansions.find? fun (point, _) => point == c.toNat with
    | some (_, image) => image.map Char.ofNat
    | none => [caseImage upperRuns c]

def isCased (c : Char) : Bool := inRanges casedRanges c

def isCaseIgnorable (c : Char) : Bool := inRanges caseIgnorableRanges c

/-- The nearest character that is not ignorable is cased. -/
def meetsCased (text : List Char) : Bool :=
  match text.dropWhile isCaseIgnorable with
  | c :: _ => isCased c
  | [] => false

/-- A capital sigma is final when a cased character stands before it and none after it. -/
def lowerSigma (before after : List Char) : Char :=
  if meetsCased before && !meetsCased after then Char.ofNat 0x3C2 else Char.ofNat 0x3C3

/-- The first argument holds the characters already passed, nearest first. -/
def lowerAfter (before : List Char) : List Char → List Char
  | [] => []
  | c :: rest =>
    (if c.toNat == 0x3A3 then [lowerSigma before rest] else lowerChar c) ++
      lowerAfter (c :: before) rest

def lower (text : List Char) : List Char := lowerAfter [] text

def upper (text : List Char) : List Char := text.flatMap upperChar

/-- Capitalizing maps the first character to upper case and keeps the others. -/
def capitalize : List Char → List Char
  | [] => []
  | c :: rest => upperChar c ++ rest

end InterfaceAudit.Text
