import Tortoise.Disk.Basic
import Tortoise.Toml.Document
import Tortoise.Toml.Parse

/-!
# Configuration files

A configuration file is a TOML text that gives values to some of the settings. Keys are matched
up to case, but only a key in its proper spelling counts as defined. Every other key is an error.

A file may spell one key in two ways. `ConfigFile.parse` goes through the top table in the order of
the document, so that the later of the two counts. This order is a choice of the model: a decoder
that goes through a table in no particular order may end with either of them.
-/

namespace Tortoise

structure ConfigFile where
  path : String
  logLevel : String := ""
  logFormat : String := ""
  timeout : Int64 := 0
  maxSteps : Int64 := 0
  maxExprLen : Int64 := 0
  encoding : String := ""
  trace : Bool := false
  /-- The keys of the top table as they are spelled. -/
  keys : List String := []
deriving DecidableEq

inductive ConfigError where
  | unreadable (path : String) (error : FileError)
  | malformed (path : String)
  | unknownKey (path : String) (key : Toml.Key)
deriving DecidableEq

def ConfigError.message : ConfigError → String
  | unreadable path error => s!"cannot read {path}: " ++ error.message
  | malformed path => s!"parse error in {path}: <toml>"
  | unknownKey path key => "unknown key " ++ Text.quote key.render ++ s!" in {path}"

namespace ConfigFile

def fileName : String := "robologo.toml"

def allowed : List String :=
  ["log-level", "log-format", "timeout", "max-steps", "max-expr-len", "encoding", "trace"]

/-- Whether a key is given in its proper spelling. -/
def defines (c : ConfigFile) (key : String) : Bool := c.keys.contains key

/-- The allowed key that a key stands for: itself, or one that differs in case only. -/
def allowed? (key : String) : Option String :=
  if allowed.contains key then some key else allowed.find? fun a => Text.equalsFolded key a

/-- Takes over an entry of the top table; `none` if its value has the wrong type. It replaces what
another spelling of the same key has set before. -/
def set (c : ConfigFile) (key : String) (node : Toml.Node) : Option ConfigFile :=
  match allowed? key, node with
  | none, _ => some c
  | some "log-level", .scalar (.text s) => some { c with logLevel := s }
  | some "log-format", .scalar (.text s) => some { c with logFormat := s }
  | some "encoding", .scalar (.text s) => some { c with encoding := s }
  | some "timeout", .scalar (.int n) => some { c with timeout := n }
  | some "max-steps", .scalar (.int n) => some { c with maxSteps := n }
  | some "max-expr-len", .scalar (.int n) => some { c with maxExprLen := n }
  | some "trace", .scalar (.bool b) => some { c with trace := b }
  | some _, _ => none

def isKnown : Toml.Key → Bool
  | [key] => (allowed? key).isSome
  | _ => false

/-- Reads the content of a configuration file. Of two spellings of one key the later one in the
document counts. -/
def parse (path : String) (content : Bytes) : Except ConfigError ConfigFile :=
  let read : Option (Toml.Document × ConfigFile) := do
    let d ← Toml.Document.ofStatements? (← Toml.parse content)
    let start : ConfigFile := { path, keys := d.root.map (·.1) }
    let c ← d.root.foldlM (fun c entry => c.set entry.1 entry.2) start
    return (d, c)
  match read with
  | none => .error (.malformed path)
  | some (d, c) =>
    match d.keys.find? fun key => !isKnown key with
    | some key => .error (.unknownKey path key)
    | none => .ok c

variable {m : Type → Type} [Monad m] [FileSystem m]

def load (path : String) : m (Except ConfigError ConfigFile) := do
  match ← FileSystem.read path with
  | .error e => return .error (.unreadable path e)
  | .ok content => return parse path content

def find (directory : String) : m String := do
  let path := Path.join directory fileName
  match ← FileSystem.isDirectory path with
  | .ok false => return path
  | _ => return ""

end ConfigFile

end Tortoise
