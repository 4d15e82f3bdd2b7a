import InterfaceAudit.Json.Reader
import InterfaceAudit.Settings.Checked
import InterfaceAudit.Text.Kebab

/-!
Sources of settings: values that are given, the environment and a file of variables.
A source that is asked earlier wins over the later ones, field by field.

The sections, their fields, the starts of their variables and their defaults are the program's own.
How they are filled is the documented behaviour of the settings package that the program builds on,
and it is taken from there: `Environment.get?`, `Spelling`, `decode`, `gather`, `Failure`,
`Section.resolve`, `Section.normalize`, `Section.resolveWithin`, `merged` and `resolve` follow it.
-/

namespace InterfaceAudit

/-- The variables of a process; their names are compared without regard to case. -/
structure Environment where
  entries : List (String × String)

/-- The last of several variables with one name counts. The package asks for variables without
regard to case, and so does this. -/
def Environment.get? (environment : Environment) (name : String) : Option String :=
  (environment.entries.reverse.find? fun entry => lowerCase entry.1 == lowerCase name).map
    Prod.snd

namespace Settings

inductive Source where
  | environment
  | file
  deriving DecidableEq, Repr

/-- The name of a source in messages. -/
def Source.name : Source → String
  | .environment => "EnvSettingsSource"
  | .file => "DotEnvSettingsSource"

/-- Settings fail on a variable that is not JSON, or on the faults of their values. In the package
these are two errors: the first one is raised by a source before any field is checked, and the
second one by the checks, which find all faults. -/
inductive Failure where
  | notJson (field : String) (source : Source)
  | invalid (findings : List Finding)
  deriving DecidableEq, Repr

def Failure.message : Failure → String
  | .notJson field source =>
    "error parsing value for field \x22" ++ field ++ "\x22 from source \x22" ++ source.name ++
      "\x22"
  | .invalid _ => "settings are not valid"

/-- A variable holds a text, or a value as JSON. By the rules of the package the variables of fields
that are lists or sections hold JSON, and all others hold a text. -/
inductive Spelling where
  | text
  | json
  deriving DecidableEq, Repr

/-- A JSON null leaves its field to the next source. The decoding is a step of the package: it comes
before the program's own reading of a field (`readList` for a list), so a text that is not JSON
never gets there. -/
def decode (field : String) (source : Source) (text : String) :
    Spelling → Except Failure (Option Json)
  | .text => .ok (some (.string text))
  | .json =>
    match Json.read? text with
    | some .null => .ok none
    | some value => .ok (some value)
    | none => .error (.notJson field source)

/-- The fields that a source knows, in the order of the fields. As in the package, the first
variable that cannot be decoded stops the source. -/
def gather (source : Source) (get? : String → Option String) :
    List (String × Spelling) → Except Failure (List (String × Json))
  | [] => .ok []
  | (field, form) :: others =>
    match get? field with
    | none => gather source get? others
    | some text => do
      let value ← decode field source text form
      let rest ← gather source get? others
      return (value.map fun value => (field, value)).toList ++ rest

/-! ### Sections -/

/-- A section has variables of its own and reads its fields. What it declares is the program's, and
which of its variables are JSON follows from the types of its fields. -/
structure Section (Value : Type) where
  name : String
  variableStart : String
  fields : List (String × Spelling)
  read : List (String × Json) → Checked Value

def pathsSection : Section Paths where
  name := "paths"
  variableStart := "PATHS_"
  fields :=
    ["idl_file", "narrative_dir", "header_dir", "implementation_dir", "wrapper_dir", "test_dir",
      "output_dir", "narrative_suffix", "header_suffix", "implementation_suffix", "wrapper_suffix",
      "test_suffix"].map fun field => (field, .text)
  read fields :=
    let default : Paths := {}
    Paths.mk <$> field fields "idl_file" readPath default.idlFile
      <*> field fields "narrative_dir" readPath default.narrativeDirectory
      <*> field fields "header_dir" readPath default.headerDirectory
      <*> field fields "implementation_dir" readPath default.implementationDirectory
      <*> field fields "wrapper_dir" readPath default.wrapperDirectory
      <*> field fields "test_dir" readPath default.testDirectory
      <*> field fields "output_dir" readPath default.outputDirectory
      <*> field fields "narrative_suffix" readText default.narrativeSuffix
      <*> field fields "header_suffix" readText default.headerSuffix
      <*> field fields "implementation_suffix" readText default.implementationSuffix
      <*> field fields "wrapper_suffix" readText default.wrapperSuffix
      <*> field fields "test_suffix" readText default.testSuffix

def parsingSection : Section Parsing where
  name := "parser"
  variableStart := "PARSER_"
  fields :=
    [("header_return_types", .json), ("group_functions", .json), ("case_functions", .json),
      ("static_lookahead_chars", .text)]
  read fields :=
    let default : Parsing := {}
    (fun returnTypes groups cases lookahead => ⟨returnTypes, ⟨groups, cases⟩, lookahead⟩)
      <$> field fields "header_return_types" readList default.returnTypes
      <*> field fields "group_functions" readList default.vocabulary.groupFunctions
      <*> field fields "case_functions" readList default.vocabulary.caseFunctions
      <*> field fields "static_lookahead_chars" (readLimited lookaheadLimits) default.lookahead

def generationSection : Section Generation where
  name := "generator"
  variableStart := "GENERATOR_"
  fields :=
    [("missing_symbol_policy", .text), ("json_indent", .text), ("max_concurrent_reads", .text)]
  read fields :=
    let default : Generation := {}
    Generation.mk <$> field fields "missing_symbol_policy" readPolicy default.policy
      <*> field fields "json_indent" (readLimited indentLimits) default.indent
      <*> field fields "max_concurrent_reads" (readLimited concurrentReadLimits)
        default.concurrentReads

def loggingSection : Section Logging where
  name := "logging"
  variableStart := "LOG_"
  fields := [("level", .text), ("format", .text)]
  read fields :=
    let default : Logging := {}
    Logging.mk <$> field fields "level" readText default.level
      <*> field fields "format" readText default.format

namespace Section

variable {Value : Type}

def fieldNames (part : Section Value) : List String := part.fields.map Prod.fst

def variableNames (part : Section Value) : List String :=
  part.fieldNames.map fun field => part.variableStart ++ field

/-- Given fields win over the variables of the section; a field that it does not have is a
fault. Both are rules of the package. -/
def resolve (part : Section Value) (environment : Environment)
    (given : List (String × Json)) : Except Failure Value := do
  let found ← gather .environment
    (fun field => environment.get? (part.variableStart ++ field)) part.fields
  let fields := Json.setFields found given
  match (fun value _ => value) <$> part.read fields <*> othersIn fields part.fieldNames with
  | .valid value => .ok value
  | .faulty findings => .error (.invalid findings)

/-- A variable that holds a whole section spells the names of its fields in any case, because the
package does not regard the case of names. -/
def normalize (part : Section Value) : Json → Json
  | .object fields =>
    .object (fields.foldl (fun fields (name, value) =>
      let known := part.fieldNames.find? fun known => lowerCase known == lowerCase name
      Json.setField fields (known.getD name) value) [])
  | value => value

/-- A section that is given keeps its findings to itself; one that is not given stops everything
when its own variables are at fault. In the package the first is the check of a field, and the
second is the default of that field, which is made from the variables of the section. -/
def resolveWithin (part : Section Value) (environment : Environment)
    (given : List (String × Json)) : Except Failure (Checked Value) :=
  match (Json.object given).field? part.name with
  | none => do
    let value ← part.resolve environment []
    return .valid value
  | some value =>
    .ok <| Checked.under (.name part.name) <|
      match value with
      | .object fields =>
        match part.resolve environment fields with
        | .ok value => .valid value
        | .error (.invalid findings) => .faulty findings
        | .error (.notJson _ _) => .fault .unusable
      | _ => .fault .notSection

end Section

end Settings

namespace Settings

def fields : List (String × Spelling) :=
  [("app_name", .text), ("app_version", .text), (pathsSection.name, .json),
    (parsingSection.name, .json), (generationSection.name, .json), (loggingSection.name, .json)]

/-- The names of all variables, in capitals. -/
def variableNames : List String :=
  ((fields.map Prod.fst) ++ pathsSection.variableNames ++ parsingSection.variableNames ++
    generationSection.variableNames ++ loggingSection.variableNames).map upperCase

/-- A section in a source is brought to the names of its fields. -/
def normalizeSections (given : List (String × Json)) : List (String × Json) :=
  given.map fun (name, value) =>
    (name,
      if name == pathsSection.name then pathsSection.normalize value
      else if name == parsingSection.name then parsingSection.normalize value
      else if name == generationSection.name then generationSection.normalize value
      else if name == loggingSection.name then loggingSection.normalize value
      else value)

/-- The values that are given win over the environment, and it wins over the file. This is the order
of sources that the package documents. -/
def merged (environment : Environment) (file : Environment) (given : List (String × Json)) :
    Except Failure (List (String × Json)) := do
  let fromEnvironment ← gather .environment environment.get? fields
  let fromFile ← gather .file file.get? fields
  return Json.overlay
    (Json.overlay (normalizeSections fromFile) (normalizeSections fromEnvironment)) given

/-- Names that are no settings are passed over; findings come in the order of the fields. -/
def resolve (environment : Environment) (file : Environment) (given : List (String × Json)) :
    Except Failure Settings := do
  let values ← merged environment file given
  let default : Settings := {}
  let paths ← pathsSection.resolveWithin environment values
  let parsing ← parsingSection.resolveWithin environment values
  let generation ← generationSection.resolveWithin environment values
  let logging ← loggingSection.resolveWithin environment values
  match Settings.mk <$> field values "app_name" readText default.appName
      <*> field values "app_version" readText default.appVersion
      <*> paths <*> parsing <*> generation <*> logging with
  | .valid settings => .ok settings
  | .faulty findings => .error (.invalid findings)

/-- Values as a whole are an object, and a variable that is not JSON makes them unusable. -/
def ofJson (environment : Environment) : Json → Except Failure Settings
  | .object given =>
    match resolve environment ⟨[]⟩ given with
    | .error (.notJson _ _) => .error (.invalid [⟨[], .unusable⟩])
    | result => result
  | _ => .error (.invalid [⟨[], .notSection⟩])

end Settings

end InterfaceAudit
