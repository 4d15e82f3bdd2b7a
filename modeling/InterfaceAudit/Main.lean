import InterfaceAudit.CommandLine

/-!
The program on a real file system: the paths that it looks at are read into a tree first, and what
the run changed in the tree is written back.
-/

namespace InterfaceAudit.Main

open CommandLine

/-- What stands at a place of the file system. -/
def entryAt (location : Location) : IO (Option Entry) := do
  let path := (← IO.currentDir) / Path.toString ⟨.root, location⟩
  if ← path.isDir then return some .directory
  if ← path.pathExists then return some (.file (← IO.FS.readBinFile path).toList)
  return none

/-- The entries on the way to a path. -/
def load (tree : FileTree) (location : Location) : List String → IO FileTree
  | [] => pure tree
  | name :: names => do
    let next := if name == ".." then location.dropLast else location ++ [name]
    match tree.get? next, ← entryAt next with
    | none, some entry => load (tree.set next entry) next names
    | _, _ => load tree next names

/-- What is read shows more of the paths that the program looks at, three times over. -/
def explore (surroundings : Surroundings) : Nat → IO Surroundings
  | 0 => pure surroundings
  | rounds + 1 => do
    let tree ← surroundings.consulted.foldlM (fun tree path => load tree [] path.names)
      surroundings.tree
    explore { surroundings with tree } rounds

def environment : IO Environment := do
  let names := Settings.variableNames ++ Settings.variableNames.map lowerCase
  let found ← names.filterMapM fun name => do
    return (← IO.getEnv name).map fun text => (name, text)
  return ⟨found⟩

def writeBack (before after : FileTree) : IO Unit := do
  let directory ← IO.currentDir
  let pathOf (location : Location) := directory / Path.toString ⟨.root, location⟩
  for (location, entry) in after.entries do
    if before.get? location != some entry then
      match entry with
      | .directory => IO.FS.createDirAll (pathOf location)
      | .file content => IO.FS.writeBinFile (pathOf location) ⟨content.toArray⟩
  for (location, _) in before.entries do
    if (after.get? location).isNone then IO.FS.removeFile (pathOf location)

/-- Milliseconds as seconds with three decimals. -/
def seconds (milliseconds : Nat) : String :=
  let fraction := toString (milliseconds % 1000)
  toString (milliseconds / 1000) ++ "." ++ "".pushn '0' (3 - fraction.length) ++ fraction

def run (arguments : List String) : IO UInt32 := do
  let started ← IO.monoMsNow
  let directory := Path.ofString (← IO.currentDir).toString
  let known : FileTree := ← load .empty [] directory.names
  let surroundings ← explore ⟨arguments, ← environment, directory, known⟩ 3
  let conclusion := surroundings.run (seconds ((← IO.monoMsNow) - started))
  writeBack surroundings.tree conclusion.tree
  for entry in conclusion.log do
    IO.eprintln (logLine conclusion.logFormat entry)
  IO.print conclusion.printed
  match conclusion.ending with
  | .exit code => return code.toUInt32
  | .breakdown cause => do
    IO.eprintln cause.message
    return 1

end InterfaceAudit.Main

def main (arguments : List String) : IO UInt32 := InterfaceAudit.Main.run arguments
