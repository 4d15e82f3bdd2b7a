import InterfaceAudit.Settings.Sources
import InterfaceAudit.Table

/-!
Files of variables: one binding a line, with quotes, comments and references to other variables.
A line that is no binding is passed over.
The format is not the program's own: it is that of the package which loads such files, and all of
this follows the behaviour that is documented for it.
-/

namespace InterfaceAudit.Settings.VariableFile

/-- A step yields a value, or fails where it stopped; the rest of the text is kept either way. -/
abbrev Step (Value : Type) := Option Value × List Char

def endsLine (c : Char) : Bool := c == '\n' || c == '\r'

def isInlineBlank (c : Char) : Bool := Text.isBlank c && !endsLine c

def skipInline (text : List Char) : List Char := text.dropWhile isInlineBlank

/-- A backslash in front of a quote hides it, unless no other quote ends the value. -/
def quotedValue (quote : Char) : List Char → Option (List Char × List Char)
  | [] => none
  | '\\' :: c :: rest =>
    if c == quote then
      match quotedValue quote rest with
      | some (value, rest) => some ('\\' :: c :: value, rest)
      | none => some (['\\'], rest)
    else (quotedValue quote (c :: rest)).map fun (value, rest) => ('\\' :: value, rest)
  | c :: rest =>
    if c == quote then some ([], rest)
    else (quotedValue quote rest).map fun (value, rest) => (c :: value, rest)

/-- Only some characters have an escaped spelling. -/
def unescape (escapes : List (Char × Char)) : List Char → List Char
  | '\\' :: c :: rest =>
    match escapes.lookup c with
    | some character => character :: unescape escapes rest
    | none => '\\' :: unescape escapes (c :: rest)
  | c :: rest => c :: unescape escapes rest
  | [] => []

def singleQuoteEscapes : List (Char × Char) := [('\\', '\\'), ('\'', '\'')]

def doubleQuoteEscapes : List (Char × Char) :=
  [('\\', '\\'), ('\'', '\''), ('\x22', '\x22'), ('a', '\x07'), ('b', '\x08'), ('f', '\x0c'),
    ('n', '\n'), ('r', '\r'), ('t', '\t'), ('v', '\x0b')]

/-- A comment in a value without quotes starts after a blank. -/
def withoutComment (before : Option Char) : List Char → List Char
  | [] => []
  | c :: rest =>
    if c == '#' && before.any Text.isBlank then []
    else c :: withoutComment (some c) rest

def plainValue (text : List Char) : List Char :=
  ((withoutComment none text).reverse.dropWhile Text.isBlank).reverse

def readValue (text : List Char) : Step (List Char) :=
  match text with
  | '\'' :: rest =>
    match quotedValue '\'' rest with
    | some (value, rest) => (some (unescape singleQuoteEscapes value), rest)
    | none => (none, text)
  | '\x22' :: rest =>
    match quotedValue '\x22' rest with
    | some (value, rest) => (some (unescape doubleQuoteEscapes value), rest)
    | none => (none, text)
  | _ =>
    (some (plainValue (text.takeWhile (!endsLine ·))), text.dropWhile (!endsLine ·))

/-- The word `export` in front of a name is passed over. -/
def skipExport (text : List Char) : List Char :=
  if "export".toList.isPrefixOf text && (text.drop 6).head?.any isInlineBlank then
    skipInline (text.drop 6)
  else text

def isKeyChar (c : Char) : Bool := c != '=' && c != '#' && !Text.isBlank c

/-- A line with a comment alone has no name. -/
def readKey (text : List Char) : Step (Option (List Char)) :=
  match text with
  | '#' :: _ => (some none, text)
  | '\'' :: rest =>
    match rest.takeWhile (· != '\''), rest.dropWhile (· != '\'') with
    | [], _ => (none, text)
    | key, _ :: rest => (some (some key), rest)
    | _, [] => (none, text)
  | _ =>
    match text.takeWhile isKeyChar with
    | [] => (none, text)
    | key => (some (some key), text.dropWhile isKeyChar)

/-- Nothing but a comment may follow a binding on its line. -/
def readLineEnd (text : List Char) : Step Unit :=
  let rest := match skipInline text with
    | '#' :: rest => rest.dropWhile (!endsLine ·)
    | _ => text
  match skipInline rest with
  | [] => (some (), [])
  | '\r' :: '\n' :: rest => (some (), rest)
  | c :: after => if endsLine c then (some (), after) else (none, rest)

/-- A name without an equals sign is bound to nothing. -/
def readBinding (text : List Char) : Step (Option (String × Option String)) :=
  match readKey (skipExport text) with
  | (none, rest) => (none, rest)
  | (some key, rest) =>
    let (value, rest) : Step (Option (List Char)) := match skipInline rest with
      | '=' :: rest =>
        let (value, rest) := readValue (skipInline rest)
        (value.map some, rest)
      | rest => (some none, rest)
    match value, readLineEnd rest with
    | some value, (some (), rest) =>
      (some (key.map fun key => (String.ofList key, value.map String.ofList)), rest)
    | some _, (none, rest) => (none, rest)
    | none, _ => (none, rest)

def skipLine (text : List Char) : List Char := (text.dropWhile (!endsLine ·)).drop 1

/-- Bindings are read as long as the text grows shorter. -/
def bindings (text : List Char) : List (String × Option String) :=
  match text.dropWhile Text.isBlank with
  | [] => []
  | start =>
    let (binding, rest) : Step (Option (String × Option String)) := match readBinding start with
      | (none, rest) => (some none, skipLine rest)
      | step => step
    if rest.length < text.length then
      (binding.bind id).toList ++ bindings rest
    else []
termination_by text.length

/-- A reference names a variable and perhaps what stands for it when it is not set. -/
def reference (text : List Char) : Option (List Char × List Char × List Char) :=
  match text with
  | '$' :: '\x7b' :: rest =>
    let name := rest.takeWhile fun c => c != '\x7d' && c != ':'
    match rest.drop name.length with
    | '\x7d' :: rest => some (name, [], rest)
    | ':' :: '-' :: rest =>
      let default := rest.takeWhile (· != '\x7d')
      match rest.drop default.length with
      | _ :: rest => some (name, default, rest)
      | [] => none
    | _ => none
  | _ => none

/-- References are replaced by the values of the variables that they name. -/
def expand (value? : String → Option String) (text : List Char) : List Char :=
  match text with
  | [] => []
  | c :: after =>
    match reference (c :: after) with
    | some (name, default, rest) =>
      if rest.length ≤ after.length then
        ((value? (String.ofList name)).map String.toList).getD default ++ expand value? rest
      else c :: expand value? after
    | none => c :: expand value? after
termination_by text.length

/-- A variable may refer to the variables above it and to those of the process. -/
def assign (outer : Environment) (table : Table (Option String))
    (binding : String × Option String) : Table (Option String) :=
  let value? (name : String) : Option String :=
    match table.get? name with
    | some value => value.orElse fun _ => some ""
    | none => (outer.entries.find? fun entry => entry.1 == name).map Prod.snd
  table.set binding.1 (binding.2.map fun text => String.ofList (expand value? text.toList))

/-- The variables that a file binds. -/
def read (outer : Environment) (text : List Char) : Environment :=
  ⟨((bindings text).foldl (assign outer) .empty).entries.filterMap fun (name, value) =>
    value.map fun value => (name, value)⟩

end InterfaceAudit.Settings.VariableFile
