import InterfaceAudit.Text.CharTable

/-!
Character classes of the readers.
Two notions of a word character and two notions of a blank are in use; they differ outside ASCII.
-/

namespace InterfaceAudit.Text

/-- A table of inclusive ranges contains a character when one of its ranges does. -/
def inRanges (ranges : List (Nat × Nat)) (c : Char) : Bool :=
  ranges.any fun range => range.1 ≤ c.toNat && c.toNat ≤ range.2

def isAsciiLetter (c : Char) : Bool :=
  ('a' ≤ c && c ≤ 'z') || ('A' ≤ c && c ≤ 'Z')

def isAsciiDigit (c : Char) : Bool :=
  '0' ≤ c && c ≤ '9'

def isLower (c : Char) : Bool := 'a' ≤ c && c ≤ 'z'

def isUpper (c : Char) : Bool := 'A' ≤ c && c ≤ 'Z'

def isHexDigit (c : Char) : Bool :=
  isAsciiDigit c || ('a' ≤ c && c ≤ 'f') || ('A' ≤ c && c ≤ 'F')

/-- White space is what Unicode calls white space. -/
def isWhiteSpace (c : Char) : Bool :=
  if c.toNat < 128 then
    c == ' ' || (9 ≤ c.toNat && c.toNat ≤ 13)
  else
    c.toNat == 0x85 || c.toNat == 0xA0 || c.toNat == 0x1680 ||
      (0x2000 ≤ c.toNat && c.toNat ≤ 0x200A) || c.toNat == 0x2028 || c.toNat == 0x2029 ||
      c.toNat == 0x202F || c.toNat == 0x205F || c.toNat == 0x3000

/-- A blank is white space or one of the four information separators. -/
def isBlank (c : Char) : Bool :=
  isWhiteSpace c || (0x1C ≤ c.toNat && c.toNat ≤ 0x1F)

/-- A digit is a decimal digit of any script. -/
def isDigit (c : Char) : Bool :=
  if c.toNat < 128 then isAsciiDigit c else inRanges decimalDigitRanges c

/-- A word character is a letter, a number of any kind or the underscore. -/
def isWord (c : Char) : Bool :=
  if c.toNat < 128 then
    isAsciiLetter c || isAsciiDigit c || c == '_'
  else
    inRanges letterRanges c || inRanges decimalDigitRanges c ||
      inRanges letterNumberRanges c || inRanges otherNumberRanges c

/-- A token character continues a word: alphabetic characters, marks, decimal digits, connecting
punctuation and the two joiners. -/
def isTokenChar (c : Char) : Bool :=
  if c.toNat < 128 then
    isAsciiLetter c || isAsciiDigit c || c == '_'
  else
    inRanges letterRanges c || inRanges markRanges c || inRanges decimalDigitRanges c ||
      inRanges letterNumberRanges c || inRanges letterSymbolRanges c ||
      inRanges connectorRanges c || c.toNat == 0x200C || c.toNat == 0x200D

/-- What satisfies a condition is removed on both sides. -/
def trimWhile (isGap : Char → Bool) (text : List Char) : List Char :=
  ((text.dropWhile isGap).reverse.dropWhile isGap).reverse

def trim (text : List Char) : List Char := trimWhile isBlank text

end InterfaceAudit.Text
