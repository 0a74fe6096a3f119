import Tortoise.Disk.Path
import Tortoise.Text.Rune

/-!
# Files

`FileSystem m` says that programs in `m` can look at, read and write files. `Disk` is such a file
system in memory, a set of files and directories below a working directory; a directory of a file
is there without being listed.
-/

namespace Tortoise

inductive FileAction where
  | stat
  | opening
  | read
deriving DecidableEq

def FileAction.name : FileAction → String
  | stat => "stat"
  | opening => "open"
  | read => "read"

inductive FileFault where
  | notFound
  | isDirectory
  | notDirectory
  | nameTooLong
  | invalid
  | other (text : String)
deriving DecidableEq

def FileFault.message : FileFault → String
  | notFound => "no such file or directory"
  | isDirectory => "is a directory"
  | notDirectory => "not a directory"
  | nameTooLong => "file name too long"
  | invalid => "invalid argument"
  | other text => text

structure FileError where
  action : FileAction
  path : String
  fault : FileFault
deriving DecidableEq

def FileError.message (e : FileError) : String :=
  e.action.name ++ " " ++ e.path ++ ": " ++ e.fault.message

class FileSystem (m : Type → Type) where
  /-- Whether a path leads to a directory. -/
  isDirectory : String → m (Except FileError Bool)
  read : String → m (Except FileError Bytes)
  write : String → Bytes → m (Except FileError Unit)

structure Disk where
  files : List (List String × Bytes) := []
  directories : List (List String) := []
deriving DecidableEq

namespace Disk

inductive Entry where
  | directory
  | file (content : Bytes)
deriving DecidableEq

def entry? (d : Disk) (place : List String) : Option Entry :=
  match d.files.lookup place with
  | some content => some (.file content)
  | none =>
    let isAbove (other : List String) : Bool := place.isPrefixOf other
    if place.isEmpty || d.directories.any isAbove || d.files.any (isAbove ·.1) then
      some .directory
    else none

inductive Spot where
  | taken (place : List String) (entry : Entry)
  /-- A free name in a directory. -/
  | free (place : List String)
deriving DecidableEq

def walk (d : Disk) (place : List String) : List String → Except FileFault Spot
  | [] => .ok (.taken place .directory)
  | name :: rest =>
    let next := place ++ [name]
    if name == "" || name == "." then walk d place rest
    else if name == ".." then walk d place.dropLast rest
    else if 255 < name.utf8ByteSize then .error .nameTooLong
    else match d.entry? next with
      | none => if rest.isEmpty then .ok (.free next) else .error .notFound
      | some .directory => walk d next rest
      | some (.file content) =>
        if rest.isEmpty then .ok (.taken next (.file content)) else .error .notDirectory

def names (path : String) : Except FileFault (List String) :=
  if path.isEmpty then .error .notFound
  else if path.toList.contains '\x00' then .error .invalid
  else if 4096 ≤ path.utf8ByteSize then .error .nameTooLong
  else .ok (Path.elements path)

def follow (d : Disk) (path : String) : Except FileFault Spot := do d.walk [] (← names path)

/-- The place where a path wants a file. A slash at its end asks for a directory. -/
def destination (d : Disk) (path : String) : Except FileFault (List String) := do
  let names ← names path
  let last := names.reverse.dropWhile (·.isEmpty)
  if names.getLast?.any (·.isEmpty) then
    let _ ← d.walk [] (last.tail.reverse ++ [""])
    throw .isDirectory
  match ← d.walk [] names with
  | .taken _ .directory => throw .isDirectory
  | .taken place (.file _) | .free place => return place

def isDirectory (d : Disk) (path : String) : Except FileError Bool :=
  match d.follow path with
  | .ok (.taken _ entry) => .ok (entry == .directory)
  | .ok (.free _) => .error ⟨.stat, path, .notFound⟩
  | .error fault => .error ⟨.stat, path, fault⟩

def read (d : Disk) (path : String) : Except FileError Bytes :=
  match d.follow path with
  | .ok (.taken _ (.file content)) => .ok content
  | .ok (.taken _ .directory) => .error ⟨.read, path, .isDirectory⟩
  | .ok (.free _) => .error ⟨.opening, path, .notFound⟩
  | .error fault => .error ⟨.opening, path, fault⟩

def put (place : List String) (content : Bytes) :
    List (List String × Bytes) → List (List String × Bytes)
  | [] => [(place, content)]
  | (other, old) :: rest =>
    if place = other then (place, content) :: rest else (other, old) :: put place content rest

def write (d : Disk) (path : String) (content : Bytes) : Except FileError Disk :=
  match d.destination path with
  | .ok place => .ok { d with files := put place content d.files }
  | .error fault => .error ⟨.opening, path, fault⟩

instance : FileSystem (StateM Disk) where
  isDirectory path := return (← get).isDirectory path
  read path := return (← get).read path
  write path content := do
    match (← get).write path content with
    | .ok d => set d; return .ok ()
    | .error e => return .error e

end Disk

end Tortoise
