import InterfaceAudit.Path

/-!
Trees of files.
A tree is a table from places to files and directories, and the root is always a directory.
-/

namespace InterfaceAudit

/-- A place is the way from the root, without dots. -/
abbrev Location := List String

inductive Entry where
  | file (content : List UInt8)
  | directory
  deriving DecidableEq

structure FileTree where
  entries : List (Location × Entry)

/-- What the file system refuses to do, with the path that it was asked for. A tree refuses no path
for its length and none for a lack of permissions, so to look whether a file is there never
fails. -/
inductive FileFault where
  | notFound (path : Path)
  | exists (path : Path)
  | notDirectory (path : Path)
  | isDirectory (path : Path)
  deriving DecidableEq, Repr

namespace FileFault

def number : FileFault → Nat
  | .notFound _ => 2
  | .exists _ => 17
  | .notDirectory _ => 20
  | .isDirectory _ => 21

def reason : FileFault → String
  | .notFound _ => "No such file or directory"
  | .exists _ => "File exists"
  | .notDirectory _ => "Not a directory"
  | .isDirectory _ => "Is a directory"

def path : FileFault → Path
  | .notFound path => path
  | .exists path => path
  | .notDirectory path => path
  | .isDirectory path => path

end FileFault

namespace FileTree

def empty : FileTree := ⟨[]⟩

def get? (tree : FileTree) (location : Location) : Option Entry :=
  if location = [] then some .directory
  else (tree.entries.find? fun entry => entry.1 = location).map Prod.snd

/-- A place that is set again takes the new entry. -/
def set (tree : FileTree) (location : Location) (entry : Entry) : FileTree :=
  if tree.entries.any fun old => old.1 = location then
    ⟨tree.entries.map fun old => if old.1 = location then (location, entry) else old⟩
  else ⟨tree.entries ++ [(location, entry)]⟩

def erase (tree : FileTree) (location : Location) : FileTree :=
  ⟨tree.entries.filter fun entry => entry.1 ≠ location⟩

/-- Only the last name of a path may be missing, and two dots lead out of a directory. -/
def locate (tree : FileTree) (path : Path) (location : Location) :
    List String → Except FileFault Location
  | [] => .ok location
  | name :: names =>
    match tree.get? location with
    | some .directory =>
      locate tree path (if name == ".." then location.dropLast else location ++ [name]) names
    | some (.file _) => .error (.notDirectory path)
    | none => .error (.notFound path)

def resolve (tree : FileTree) (path : Path) : Except FileFault Location :=
  tree.locate path [] path.names

def entry? (tree : FileTree) (path : Path) : Option Entry :=
  match tree.resolve path with
  | .ok location => tree.get? location
  | .error _ => none

def isDirectory (tree : FileTree) (path : Path) : Bool :=
  match tree.entry? path with
  | some .directory => true
  | _ => false

def content? (tree : FileTree) (path : Path) : Option (List UInt8) :=
  match tree.entry? path with
  | some (.file content) => some content
  | _ => none

/-- A file may be written wherever no directory stands. -/
def write (tree : FileTree) (path : Path) (content : List UInt8) : Except FileFault FileTree := do
  let location ← tree.resolve path
  match tree.get? location with
  | some .directory => .error (.isDirectory path)
  | _ => .ok (tree.set location (.file content))

/-- A file that is not there need not be removed. -/
def remove (tree : FileTree) (path : Path) : Except FileFault FileTree :=
  match tree.resolve path with
  | .error (.notFound _) => .ok tree
  | .error fault => .error fault
  | .ok location =>
    match tree.get? location with
    | some .directory => .error (.isDirectory path)
    | some (.file _) => .ok (tree.erase location)
    | none => .ok tree

/-- One directory is made where nothing stands. -/
def makeDirectory (tree : FileTree) (path : Path) : Except FileFault FileTree := do
  let location ← tree.resolve path
  match tree.get? location with
  | some _ => .error (.exists path)
  | none => .ok (tree.set location .directory)

/-- A directory that stands already is fine. -/
def ensureDirectory (tree : FileTree) (path : Path) : Except FileFault FileTree :=
  match tree.makeDirectory path with
  | .ok made => .ok made
  | .error fault => if tree.isDirectory path then .ok tree else .error fault

/-- Directories that are missing above are made first; those stay even if the last one fails. -/
def makeDirectories (tree : FileTree) (anchor : Anchor) :
    List String → FileTree × Option FileFault
  | [] => (tree, none)
  | name :: above =>
    let path : Path := ⟨anchor, (name :: above).reverse⟩
    match tree.ensureDirectory path with
    | .ok made => (made, none)
    | .error (.notFound _) =>
      match makeDirectories tree anchor above with
      | (made, some fault) => (made, some fault)
      | (made, none) =>
        match made.ensureDirectory path with
        | .ok final => (final, none)
        | .error fault => (made, some fault)
    | .error fault => (tree, some fault)

def ensureDirectories (tree : FileTree) (path : Path) : FileTree × Option FileFault :=
  tree.makeDirectories path.anchor path.names.reverse

/-- The files under a place, with their ways from it. -/
def filesUnder (tree : FileTree) (location : Location) : List (Location × List UInt8) :=
  tree.entries.filterMap fun (place, entry) =>
    match entry with
    | .file content =>
      if location.isPrefixOf place && place.length != location.length then
        some (place.drop location.length, content)
      else none
    | .directory => none

end FileTree

end InterfaceAudit
