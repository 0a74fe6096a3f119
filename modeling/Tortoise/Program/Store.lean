import Tortoise.Charset.Decode
import Tortoise.Compile.Basic
import Tortoise.Disk.Basic
import Tortoise.Program.Binary

/-!
# Programs in files

A program is loaded from a source file, which is decoded and compiled, or from a file that holds
its binary form, as the name of the file says. It is saved in binary form.
-/

namespace Tortoise

structure Script where
  name : String
  content : Text
  /-- The size of the file in bytes. -/
  size : Nat

inductive ScriptError where
  | charset (complaint : String)
  | stat (error : FileError)
  | directory (path : String)
  | read (error : FileError)
deriving DecidableEq

def ScriptError.message : ScriptError → String
  | charset complaint => complaint
  | stat error => "failed to stat file: " ++ error.message
  | directory path => path ++ " is a directory"
  | read error => "failed to read file: " ++ error.message

section

variable {m : Type → Type} [Monad m] [FileSystem m]

/-- Loads a source file. The name of the character set is looked at first. -/
def Script.load (path charset : String) : m (Except ScriptError Script) := do
  if (Charset.ofName? charset).isNone then return .error (.charset (Charset.unsupported charset))
  match ← FileSystem.isDirectory path with
  | .error e => return .error (.stat e)
  | .ok true => return .error (.directory path)
  | .ok false =>
    match ← FileSystem.read path with
    | .error e => return .error (.read e)
    | .ok bytes =>
      match Charset.decodeNamed charset bytes with
      | .error complaint => return .error (.charset complaint)
      | .ok content => return .ok ⟨Path.base path, content, bytes.length⟩

end

structure SourceOptions where
  /-- The most bytes of an expression. -/
  bound : Nat := Expr.defaultBound
  charset : String := ""

inductive LoadError where
  | script (path : String) (error : ScriptError)
  | compile (name : String) (error : CompileError)
  | read (path : String) (error : FileError)
  | format (path : String) (error : Binary.FormatError)
deriving DecidableEq

def LoadError.message : LoadError → Text
  | script path error => s!"failed to load {path}: " ++ error.message
  | compile name error => name ++ ": " ++ error.message
  | read path error => s!"failed to read {path}: " ++ error.message
  | format path error => path ++ ": " ++ error.message

inductive SaveError where
  | encode (error : Binary.EncodeError)
  | write (path : String) (error : FileError)
deriving DecidableEq

def SaveError.message : SaveError → Text
  | encode error => "failed to encode program: " ++ error.message
  | write path error => s!"failed to write {path}: " ++ error.message

namespace Program

variable {m : Type → Type} [Monad m] [FileSystem m]

def compileFile (options : SourceOptions) (path : String) : m (Except LoadError Program) := do
  match ← Script.load path options.charset with
  | .error e => return .error (.script path e)
  | .ok script =>
    match compile options.bound script.content with
    | .error e => return .error (.compile script.name e)
    | .ok p => return .ok p

/-- Loads a program in binary form if the name of the file says so, and compiles it otherwise. -/
def load (options : SourceOptions) (path : String) : m (Except LoadError Program) := do
  if !Path.isCompiled path then compileFile options path
  else
    match ← FileSystem.read path with
    | .error e => return .error (.read path e)
    | .ok bytes =>
      match Binary.decode bytes with
      | .error e => return .error (.format path e)
      | .ok p => return .ok p

def save (path : String) (p : Program) : m (Except SaveError Unit) := do
  match Binary.encode p with
  | .error e => return .error (.encode e)
  | .ok bytes =>
    match ← FileSystem.write path bytes with
    | .error e => return .error (.write path e)
    | .ok () => return .ok ()

end Program

end Tortoise
