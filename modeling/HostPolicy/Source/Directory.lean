import HostPolicy.Error

/-!
The files that sources read: a tree of folders, and paths that lead through it from its top. A
path may lead above the top or start at the root, to folders in which there is only what was put
there.
-/

namespace HostPolicy

inductive DirectoryNode where
  | file (octets : List UInt8)
  | folder
  deriving DecidableEq, Repr

/-- What stands at each place. A place is the list of names that lead to it from the top; a folder
above the top is reached by as many `..`, and the root by `/`. -/
structure Directory where
  nodes : List (List String × DirectoryNode)
  deriving DecidableEq, Repr

namespace Directory

def empty : Directory := ⟨[]⟩

def root : List String := ["/"]

/-- Whether a place is the top or a folder above it. -/
def isAbove (place : List String) : Bool :=
  place.all (· == "..")

def parent (place : List String) : List String :=
  if place = root then root else if isAbove place then place ++ [".."] else place.dropLast

def node? (d : Directory) (place : List String) : Option DirectoryNode :=
  if isAbove place || place = root then some .folder else d.nodes.lookup place

inductive Failure where
  | notFound
  | isFolder
  | notFolder
  | nameTooLong
  | nulInPath
  deriving DecidableEq, Repr

def Failure.error : Failure → ReadError
  | notFound => ⟨.notFound, "No such file or directory (os error 2)"⟩
  | isFolder => ⟨.other, "Is a directory (os error 21)"⟩
  | notFolder => ⟨.other, "Not a directory (os error 20)"⟩
  | nameTooLong => ⟨.other, "File name too long (os error 36)"⟩
  | nulInPath => ⟨.invalidInput, "file name contained an unexpected NUL byte"⟩

/-- The names of a path, between slashes; some may be empty. -/
def names (path : String) : List String :=
  (path.toList.splitOn '/').map String.ofList

/-- What is wrong with a path wherever it may lead. -/
def check (path : String) : Except Failure Unit :=
  if '\x00' ∈ path.toList then .error .nulInPath
  else if path = "" then .error .notFound
  else if 4096 ≤ path.utf8ByteSize then .error .nameTooLong
  else .ok ()

def start (path : String) : List String :=
  if path.toList.head? = some '/' then root else []

/-- Follows names from a place. Every name but the last has to lead to a folder, and so has the
last if another, even an empty one, follows. -/
def walk (d : Directory) (place : List String) : List String → Except Failure (List String)
  | [] => .ok place
  | name :: rest =>
    if d.node? place != some .folder then .error .notFolder
    else if name = "" ∨ name = "." then d.walk place rest
    else if name = ".." then d.walk (parent place) rest
    else if 255 < name.utf8ByteSize then .error .nameTooLong
    else if (d.node? (place ++ [name])).isNone then .error .notFound
    else d.walk (place ++ [name]) rest

def read (d : Directory) (path : String) : Except Failure (List UInt8) := do
  check path
  match d.node? (← d.walk (start path) (names path)) with
  | some (.file octets) => return octets
  | _ => .error .isFolder

def set (d : Directory) (place : List String) (node : DirectoryNode) : Directory :=
  ⟨(place, node) :: d.nodes.filter fun (p, _) => p != place⟩

/-- Where a path leads for a file to be put or removed there: to a name in a folder. -/
def slot? (d : Directory) (path : String) : Option (List String) :=
  let name := (names path).getLastD ""
  if !(check path).isOk ∨ name ∈ ["", ".", ".."] ∨ 255 < name.utf8ByteSize then none
  else
    match d.walk (start path) (names path).dropLast with
    | .ok place => if d.node? place = some .folder then some (place ++ [name]) else none
    | .error _ => none

/-- Removes a file. A folder stays, and so does what the path leads to only in another way than
as a name in a folder. -/
def remove (d : Directory) (path : String) : Directory :=
  match d.slot? path with
  | none => d
  | some place =>
    match d.node? place with
    | some (.file _) => ⟨d.nodes.filter fun (p, _) => p != place⟩
    | _ => d

/-- The names of a path that are steps on its way. -/
def way (path : String) : List String :=
  (names path).filter fun name => name != "" && name != "."

/-- Makes the folders that are missing on the way from a place along names, up to where a file is
in the way. -/
def makeWay (d : Directory) (place : List String) : List String → Directory
  | [] => d
  | name :: rest =>
    if name = ".." then d.makeWay (parent place) rest
    else if 255 < name.utf8ByteSize then d
    else
      match d.node? (place ++ [name]) with
      | none => (d.set (place ++ [name]) .folder).makeWay (place ++ [name]) rest
      | some .folder => d.makeWay (place ++ [name]) rest
      | some (.file _) => d

/-- Makes folders along names from the start of a path, unless they make up a path that is wrong
wherever it may lead. -/
def makeFoldersAlong (d : Directory) (path : String) (names : List String) : Directory :=
  if (check ("/".intercalate names)).isOk then d.makeWay (start path) names else d

def makeFolders (d : Directory) (path : String) : Directory :=
  d.makeFoldersAlong path (way path)

/-- Writes a file, after making the folders that its path leads through. -/
def write (d : Directory) (path : String) (octets : List UInt8) : Directory :=
  let d := d.makeFoldersAlong path (way path).dropLast
  match d.slot? path with
  | none => d
  | some place => if d.node? place = some .folder then d else d.set place (.file octets)

end Directory

end HostPolicy
