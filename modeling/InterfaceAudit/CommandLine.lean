import InterfaceAudit.Project.Generate
import InterfaceAudit.Settings.VariableFile

/-!
The command line: its arguments, the settings that they change, and what is printed and logged.
-/

namespace InterfaceAudit.CommandLine

open Project

/-! ### Arguments -/

inductive Switch where
  | help
  | root
  | idl
  | output
  | policy
  deriving DecidableEq, Repr

def switches : List (String × Switch) :=
  [("--help", .help), ("--root", .root), ("--idl", .idl), ("--output", .output),
    ("--policy", .policy)]

/-- What is asked for; the last of repeated switches counts. -/
structure Request where
  root : Option Path := none
  idl : Option Path := none
  output : Option Path := none
  policy : Option Settings.MissingSymbolPolicy := none

/-- Arguments ask for a run or for help, or they cannot be understood. -/
inductive Arguments where
  | run (request : Request)
  | help
  | unclear

/-- An argument is a switch, perhaps with a value of its own, or a value. -/
inductive Word where
  | switch (switch : Switch) (value : Option String)
  | shortHelp (more : String)
  | unknownSwitch
  | ambiguous
  | terminator
  | value (text : String)
  deriving DecidableEq, Repr

/-- A number with a sign is a value. -/
def isNegativeNumber (text : List Char) : Bool :=
  match text with
  | '-' :: digits =>
    let whole := digits.takeWhile Text.isDigit
    match digits.drop whole.length with
    | [] => !whole.isEmpty
    | '.' :: fraction => !fraction.isEmpty && fraction.all Text.isDigit
    | _ => false
  | _ => false

/-- A text with a space in it is a value even if it starts with a hyphen. -/
def unclearWord (text : String) : Word :=
  if isNegativeNumber text.toList || text.toList.contains ' ' then .value text else .unknownSwitch

/-- A switch may be cut short as long as no other switch starts alike. -/
def longWord (text : String) : Word :=
  let name := text.toList.takeWhile (· != '=')
  let value := match text.toList.drop name.length with
    | _ :: value => some (String.ofList value)
    | [] => none
  match switches.filter fun (spelling, _) => name.isPrefixOf spelling.toList with
  | [] => unclearWord text
  | [(_, switch)] => .switch switch value
  | _ => .ambiguous

def Word.ofString (text : String) : Word :=
  match text.toList with
  | ['-', '-'] => .terminator
  | '-' :: '-' :: _ => longWord text
  | '-' :: 'h' :: more => .shortHelp (String.ofList more)
  | '-' :: _ :: _ => unclearWord text
  | _ => .value text

/-- After a terminator every argument is a value. -/
def words : List String → List Word
  | [] => []
  | text :: others =>
    match Word.ofString text with
    | .terminator => .terminator :: others.map .value
    | word => word :: words others

/-- A value is put where its switch tells; only a policy can be wrong. -/
def Request.with (request : Request) (switch : Switch) (value : String) : Option Request :=
  match switch with
  | .root => some { request with root := some (.ofString value) }
  | .idl => some { request with idl := some (.ofString value) }
  | .output => some { request with output := some (.ofString value) }
  | .policy =>
    match value with
    | "first" => some { request with policy := some .first }
    | "all" => some { request with policy := some .all }
    | _ => none
  | .help => none

/-- Switches take effect one after another, and what is left over makes the whole unclear. -/
def understand (request : Request) (isClear : Bool) : List Word → Arguments
  | [] => if isClear then .run request else .unclear
  | .switch .help none :: _ => .help
  | .shortHelp more :: _ => if more.toList.all (· == 'h') then .help else .unclear
  | .switch switch (some value) :: others =>
    match request.with switch value with
    | some request => understand request isClear others
    | none => .unclear
  | .switch switch none :: .value value :: others =>
    match request.with switch value with
    | some request => understand request isClear others
    | none => .unclear
  | .switch _ none :: _ => .unclear
  | _ :: others => understand request false others

def Arguments.ofStrings (texts : List String) : Arguments :=
  let words := words texts
  if words.contains .ambiguous then .unclear else understand {} true words

def helpText : String :=
  String.intercalate "\n"
    ["usage: generate_tasks.py [-h] [--root ROOT] [--idl IDL] [--output OUTPUT]",
      "                         [--policy \x7bfirst,all\x7d]",
      "",
      "Generate spec-compliance task documents from WebIDL",
      "",
      "options:",
      "  -h, --help            show this help message and exit",
      "  --root ROOT           Project root containing the IDL, sources and wrappers",
      "                        (default: cwd)",
      "  --idl IDL             IDL file relative to the root",
      "  --output OUTPUT       Output directory relative to the root",
      "  --policy \x7bfirst,all\x7d  Stop an interface at its first missing symbol, or",
      "                        report all of them",
      ""]

/-- Arguments win over settings. -/
def Request.adjust (request : Request) (settings : Settings) : Settings :=
  { settings with
    paths :=
      { settings.paths with
        idlFile := request.idl.getD settings.paths.idlFile
        outputDirectory := request.output.getD settings.paths.outputDirectory }
    generation :=
      { settings.generation with
        policy := request.policy.getD settings.generation.policy } }

/-! ### Printed report -/

def missingSymbolLine (missing : MissingSymbol) : String :=
  "    - " ++ missing.member ++ " (" ++ missing.memberKind ++ "): expected " ++
    missing.expectedSymbol ++ " in " ++ missing.expectedArtifact

def failureLines (result : InterfaceResult) : List String :=
  ("  " ++ result.interface ++ ":") ::
    (result.fault?.map fun fault => "    - " ++ fault.message).toList ++
    result.missingSymbols.map missingSymbolLine

def writtenLine (report : Report) (result : InterfaceResult) : Option String :=
  result.document?.map fun document =>
    "Generated: " ++ (documentPath report.outputDirectory result.interface).toString ++ " (" ++
      toString document.features.length ++ " features)"

/-- What is printed about a run that came to its end. -/
def reportLines (report : Report) (elapsed : String) : List String :=
  report.results.filterMap (writtenLine report) ++
    ["Generated: " ++ (typesPath report.outputDirectory).toString ++ " (" ++
      toString report.types.dictionaries.length ++ " dictionaries, " ++
      toString report.types.enumerations.length ++ " enums)"] ++
    (if report.skipped.isEmpty then []
      else ["", "Skipped (no members): " ++ String.intercalate ", " report.skipped]) ++
    (if report.failures.isEmpty then []
      else
        "" :: ("Failed interfaces: " ++ toString report.failures.length) ::
          report.failures.flatMap failureLines) ++
    ["",
      "Done! Generated " ++ toString report.written.length ++ " interface files with " ++
        toString report.featureCount ++ " total features in " ++ elapsed ++ "s."]

def unlines (lines : List String) : String := String.join (lines.map (· ++ "\n"))

/-! ### Log -/

def levelWeights : List (String × Nat) :=
  [("DEBUG", 10), ("INFO", 20), ("WARNING", 30), ("WARN", 30), ("ERROR", 40), ("CRITICAL", 50),
    ("FATAL", 50), ("NOTSET", 0)]

/-- An event as a line of the log, with the application that reports it. -/
def logFields (settings : Settings) (event : Event) : List (String × Json) :=
  Json.setFields event.fields
    [("event", .string event.name), ("level", .string event.level.name),
      ("app", .string settings.appName), ("version", .string settings.appVersion)]

/-- A line for the eye: the level, the event, and what it says. -/
def consoleLine (entry : List (String × Json)) : String :=
  String.intercalate " " (entry.map fun (name, value) =>
    name ++ "=" ++ Json.print .logLine value)

def logLine (format : String) (entry : List (String × Json)) : String :=
  if format == "json" then Json.print .logLine (.object entry) else consoleLine entry

/-- Events below the threshold are not logged. -/
def logged (settings : Settings) (threshold : Nat) (events : List Event) :
    List (List (String × Json)) :=
  (events.filter fun event => decide (threshold ≤ event.level.weight)).map (logFields settings)

/-! ### The program -/

/-- What a call of the program meets. -/
structure Surroundings where
  arguments : List String
  environment : Environment
  directory : Path
  tree : FileTree

/-- What the program has no answer to. -/
inductive Breakdown where
  | settings (failure : Settings.Failure)
  | variableFile (error : Text.Utf8Error)
  | unknownLevel (name : String)
  | run (fault : RunFault)
  deriving DecidableEq

def Breakdown.message : Breakdown → String
  | .settings failure => failure.message
  | .variableFile error => error.message
  | .unknownLevel name => "module 'logging' has no attribute '" ++ name ++ "'"
  | .run fault => fault.message

inductive Ending where
  | exit (code : Nat)
  | breakdown (cause : Breakdown)
  deriving DecidableEq

/-- What a call of the program leaves behind. -/
structure Conclusion where
  ending : Ending
  printed : String
  log : List (List (String × Json))
  logFormat : String
  tree : FileTree

namespace Surroundings

/-- Variables may also stand in a file in the current directory. -/
def variableFile (surroundings : Surroundings) : Except Breakdown Environment :=
  match surroundings.tree.content? (surroundings.directory.child ".env") with
  | none => .ok ⟨[]⟩
  | some content =>
    match textOf content with
    | .ok text => .ok (Settings.VariableFile.read surroundings.environment text)
    | .error error => .error (.variableFile error)

/-- The settings and the weight from which events are logged. -/
def configure (surroundings : Surroundings) : Except Breakdown (Settings × Nat) := do
  let file ← surroundings.variableFile
  let settings ← (Settings.resolve surroundings.environment file []).mapError .settings
  let level := upperCase settings.logging.level
  match levelWeights.lookup level with
  | some weight => .ok (settings, weight)
  | none => .error (.unknownLevel level)

def conclude (surroundings : Surroundings) (ending : Ending) (printed : String) : Conclusion :=
  ⟨ending, printed, [], "", surroundings.tree⟩

/-- The root of a project is taken without dots. -/
def projectRoot (surroundings : Surroundings) (root : Path) : Path :=
  let path := surroundings.directory.join root
  match surroundings.tree.resolve path with
  | .ok location => ⟨path.anchor, location⟩
  | .error _ => path

def runOn (surroundings : Surroundings) (parse : String → Script.Tree) (settings : Settings)
    (threshold : Nat) (elapsed : String) (root : Path) : Conclusion :=
  let (outcome, state) := (generateWith parse settings root).run ⟨surroundings.tree, []⟩
  let finish (ending : Ending) (printed : String) (events : List Event) : Conclusion :=
    ⟨ending, printed, logged settings threshold (state.events ++ events),
      settings.logging.format, state.tree⟩
  match outcome with
  | .ok report =>
    finish (.exit (if report.failures.isEmpty then 0 else 1))
      (unlines (reportLines report elapsed)) []
  | .error fault =>
    if fault.isStructural then
      finish (.exit 1) (unlines ["Error: " ++ fault.message]) [.generationAborted fault.message]
    else finish (.breakdown (.run fault)) "" []

/-- The artifacts and documents of the interfaces that a text defines. -/
def artifactPaths (settings : Settings) (root : Path) (text : List Char) : List Path :=
  match Idl.Document.parse text with
  | .error _ => []
  | .ok document =>
    let output := root.join settings.paths.outputDirectory
    typesPath output :: (candidates document).flatMap fun candidate =>
      let name := candidate.interface.name
      let layout := (Layout.ofInterface settings.paths name).within root
      [layout.header, layout.implementation, layout.wrapper, layout.narrative, layout.tests,
        documentPath output name]

/-- The paths that the program looks at, as far as the tree shows them yet. -/
def consulted (surroundings : Surroundings) : List Path :=
  surroundings.directory.child ".env" ::
    match surroundings.configure, Arguments.ofStrings surroundings.arguments with
    | .ok (settings, _), .run request =>
      let settings := request.adjust settings
      let root := surroundings.projectRoot (request.root.getD surroundings.directory)
      let idl := root.join settings.paths.idlFile
      [root, idl] ++
        match (surroundings.tree.content? idl).map textOf with
        | some (.ok text) => artifactPaths settings root text
        | _ => []
    | _, _ => []

/-- The program configures itself, then reads its arguments, then runs. -/
def runWith (surroundings : Surroundings) (parse : String → Script.Tree) (elapsed : String) :
    Conclusion :=
  match surroundings.configure with
  | .error cause => surroundings.conclude (.breakdown cause) ""
  | .ok (settings, threshold) =>
    match Arguments.ofStrings surroundings.arguments with
    | .unclear => surroundings.conclude (.exit 2) ""
    | .help => surroundings.conclude (.exit 0) helpText
    | .run request =>
      let root := request.root.getD surroundings.directory
      if surroundings.tree.isDirectory (surroundings.directory.join root) then
        surroundings.runOn parse (request.adjust settings) threshold elapsed
          (surroundings.projectRoot root)
      else
        surroundings.conclude (.exit 1)
          (unlines ["Error: Path is not a directory: " ++ root.toString])

/-- The program comes with a reader of scripts. -/
def run (surroundings : Surroundings) (elapsed : String) : Conclusion :=
  surroundings.runWith Script.Tree.ofText elapsed

end Surroundings

end InterfaceAudit.CommandLine
