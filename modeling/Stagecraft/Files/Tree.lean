import Stagecraft.Files.Path

/-!
# File trees

A file tree says what stands at every place: a file with its text, a directory, or nothing. Its
root is always a directory, and so are those above it, of which nothing else is known. A path leads
to a place only through directories that are there. Names and paths have a greatest length.
-/

namespace Stagecraft

inductive FileError where
  | missing
  | alreadyExists
  | notDirectory
  | isDirectory
  | nameTooLong
  | other (text : String)
  deriving DecidableEq, Repr

def FileError.message : FileError → String
  | missing => "No such file or directory (os error 2)"
  | alreadyExists => "File exists (os error 17)"
  | notDirectory => "Not a directory (os error 20)"
  | isDirectory => "Is a directory (os error 21)"
  | nameTooLong => "File name too long (os error 36)"
  | other text => text

inductive FileKind where
  | file
  | directory
  deriving DecidableEq, Repr

inductive FileNode where
  | file (text : String)
  | directory
  deriving DecidableEq, Repr

def FileNode.kind : FileNode → FileKind
  | file _ => .file
  | directory => .directory

structure FileTree where
  nodes : List (List String × FileNode)
  deriving Repr

namespace FileTree

def empty : FileTree := ⟨[]⟩

def node? (t : FileTree) (place : List String) : Option FileNode :=
  if place.all (· = "..") then some .directory
  else (t.nodes.find? fun n => n.1 = place).map (·.2)

def put (t : FileTree) (place : List String) (node : FileNode) : FileTree :=
  ⟨t.nodes.filter (fun n => n.1 ≠ place) ++ [(place, node)]⟩

def clear (t : FileTree) (place : List String) : FileTree :=
  ⟨t.nodes.filter fun n => !place.isPrefixOf n.1⟩

/-- How many bytes a name may have. -/
def nameLimit : Nat := 255

/-- How many bytes a path may have. -/
def pathLimit : Nat := 4095

/-- One step along a path, from a place that must be a directory. -/
def step (t : FileTree) (place : List String) (piece : String) :
    Except FileError (List String) :=
  match t.node? place with
  | none => .error .missing
  | some (.file _) => .error .notDirectory
  | some .directory =>
    if nameLimit < piece.utf8ByteSize then .error .nameTooLong else .ok (Path.follow place piece)

/-- The place a path leads to. Everything on the way there must be a directory. -/
def locate (t : FileTree) (p : Path) : Except FileError (List String) :=
  if pathLimit < p.text.utf8ByteSize then .error .nameTooLong else p.pieces.foldlM t.step []

def find? (t : FileTree) (p : Path) : Option FileNode :=
  match t.locate p with
  | .ok place => t.node? place
  | .error _ => none

def makeDirectory (t : FileTree) (p : Path) : Except FileError FileTree := do
  let place ← t.locate p.trimmed
  match t.node? place with
  | some _ => .error .alreadyExists
  | none => return t.put place .directory

def ensureDirectory (t : FileTree) (p : Path) : Except FileError FileTree :=
  match t.makeDirectory p, t.find? p with
  | .error _, some .directory => .ok t
  | result, _ => result

/-- Makes the first of some directories, and before it, where something on the way to it is
missing, the others. What was made before a failure stays. -/
def makeDirectories : List Path → FileTree → Except FileError Unit × FileTree
  | [], t => (.ok (), t)
  | p :: above, t =>
    let (outcome, t) :=
      match t.makeDirectory p with
      | .error .missing => makeDirectories above t
      | _ => (.ok (), t)
    match outcome, t.ensureDirectory p with
    | .ok (), .ok t => (.ok (), t)
    | .ok (), .error e => (.error e, t)
    | .error e, _ => (.error e, t)

def write (t : FileTree) (p : Path) (text : String) : Except FileError FileTree := do
  let place ← t.locate p
  match t.node? place with
  | some .directory => .error .isDirectory
  | _ => return t.put place (.file text)

def read (t : FileTree) (p : Path) : Except FileError String := do
  match t.node? (← t.locate p) with
  | some (.file text) => .ok text
  | some .directory => .error .isDirectory
  | none => .error .missing

/-- The places of all files below the root, written with slashes and in order. -/
def files (t : FileTree) : List String :=
  let places := t.nodes.filterMap fun n =>
    match n.2 with
    | .file _ => if n.1.head? = some ".." then none else some ("/".intercalate n.1)
    | .directory => none
  places.mergeSort fun a b => decide (a ≤ b)

end FileTree

inductive FileStep where
  | clear (p : Path)
  /-- Makes a directory and those above it, where they are not there yet. -/
  | makeDirectories (p : Path)
  | write (p : Path) (text : String)
  deriving DecidableEq, Repr

namespace FileStep

def path : FileStep → Path
  | clear p => p
  | makeDirectories p => p
  | write p _ => p

def written? : FileStep → Option Path
  | write p _ => some p
  | _ => none

/-- Makes a change to a tree: how it went, and the tree afterwards. -/
def apply (t : FileTree) : FileStep → Except FileError Unit × FileTree
  | clear p =>
    match t.locate p with
    | .ok place => (.ok (), t.clear place)
    | .error _ => (.ok (), t)
  | makeDirectories p => FileTree.makeDirectories p.ancestors t
  | write p text =>
    match t.write p text with
    | .ok t => (.ok (), t)
    | .error e => (.error e, t)

end FileStep

end Stagecraft
