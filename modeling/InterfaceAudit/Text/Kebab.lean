import InterfaceAudit.Text.Case

/-!
Kebab names: the words of a camel case name in lower case, joined by hyphens.
-/

namespace InterfaceAudit.Text

/-- A word begins at a capital after a small letter or digit, and at a capital between a capital
and a small letter. -/
def isWordStart (before current : Char) (after : Option Char) : Bool :=
  isUpper current &&
    (isLower before || isAsciiDigit before || (isUpper before && after.any isLower))

/-- A hyphen is put in front of every word that follows another one. -/
def hyphenateAfter (before : Char) : List Char → List Char
  | [] => []
  | c :: rest =>
    if isWordStart before c rest.head? then '-' :: c :: hyphenateAfter c rest
    else c :: hyphenateAfter c rest

def hyphenate : List Char → List Char
  | [] => []
  | c :: rest => c :: hyphenateAfter c rest

def kebab (name : List Char) : List Char := lower (hyphenate name)

end InterfaceAudit.Text

namespace InterfaceAudit

def kebabCase (name : String) : String :=
  String.ofList (Text.kebab name.toList)

def capitalize (name : String) : String :=
  String.ofList (Text.capitalize name.toList)

def lowerCase (text : String) : String :=
  String.ofList (Text.lower text.toList)

def upperCase (text : String) : String :=
  String.ofList (Text.upper text.toList)

end InterfaceAudit
