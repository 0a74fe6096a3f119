import Tortoise.Log.Value
import Tortoise.Text.Class
import Tortoise.Text.Lowercase
import Tortoise.Text.Quoted

/-!
# Log lines

A record has a level, a message and attributes. It is written on one line, as plain text with
pairs `key=value` or as a JSON object. In plain text a word is quoted if it is empty or holds a
character that could be taken for the end of the word.
-/

namespace Tortoise.Log

inductive Level where
  | debug
  | info
  | warn
  | error
deriving DecidableEq

namespace Level

def all : List Level := [debug, info, warn, error]

def name : Level → String
  | debug => "debug"
  | info => "info"
  | warn => "warn"
  | error => "error"

def label : Level → String
  | debug => "DEBUG"
  | info => "INFO"
  | warn => "WARN"
  | error => "ERROR"

def severity : Level → Int
  | debug => -4
  | info => 0
  | warn => 4
  | error => 8

def ofName? (name : String) : Option Level := all.find? fun level => level.name == name

def unknown (name : String) : String := "invalid log level: " ++ name

end Level

inductive Format where
  | plain
  | json
deriving DecidableEq

namespace Format

def name : Format → String
  | plain => "text"
  | json => "json"

def ofName? (name : String) : Option Format := [plain, json].find? fun f => f.name == name

/-- The format with a name in any case; no name stands for plain text. -/
def ofLooseName? (name : String) : Option Format :=
  if name.isEmpty then some plain else ofName? (Text.lowercase name)

def unknown (name : String) : String := "invalid log format: " ++ name

end Format

structure Record where
  level : Level
  message : Text
  attrs : List Attr := []

def Record.fields (r : Record) (time : Option Text) : List Attr :=
  let stamp : List Attr := time.toList.map fun t => ("time", .text t)
  let head : List Attr := [("level", .text r.level.label), ("msg", .text r.message)]
  stamp ++ head ++ r.attrs

def isDelicate : Rune → Bool
  | .stray _ => true
  | .char c =>
    if c.toNat < 0x80 then c.toNat ≤ 0x20 || c == '=' || c == '"'
    else c == '\uFFFD' || (Rune.char c).isBlank || !Text.isPrintable c

def word (t : Text) : Text :=
  if t.isEmpty || t.any isDelicate then Text.quote t else t

def plainPair (a : Attr) : Text := word a.1 ++ "=" ++ word a.2.plain

def jsonChar (c : Char) : List Char :=
  if c == '"' || c == '\\' then ['\\', c]
  else if c == '\n' then ['\\', 'n']
  else if c == '\r' then ['\\', 'r']
  else if c == '\t' then ['\\', 't']
  else if c.toNat < 0x20 || c == '\u2028' || c == '\u2029' then
    '\\' :: 'u' :: Text.hex 4 c.toNat
  else [c]

/-- A character inside a name of a JSON table, where backspace and form feed have short forms. -/
def jsonNameChar (c : Char) : List Char :=
  if c == '\x08' then ['\\', 'b'] else if c == '\x0c' then ['\\', 'f'] else jsonChar c

/-- A text as a JSON string; a stray byte is written as an escaped U+FFFD. -/
def jsonString (escape : Char → List Char) (t : Text) : Text :=
  let inside := t.flatMap fun
    | .char c => escape c
    | .stray _ => '\\' :: 'u' :: Text.hex 4 0xFFFD
  Text.ofString (String.ofList ('"' :: inside ++ ['"']))

def jsonText (t : Text) : Text := jsonString jsonChar t

def jsonValue : Value → Text
  | .text t => jsonText t
  | .int n => Text.ofInt n
  | .bool b => boolText b
  | .duration d => Text.ofInt64 d.nanoseconds
  | .table entries =>
    let items := (sorted entries).map fun (name, n) => jsonString jsonNameChar name ++ ":" ++ Text.ofInt64 n
    "\x7b" ++ [Rune.char ','].intercalate items ++ "\x7d"

def jsonPair (a : Attr) : Text := jsonText a.1 ++ ":" ++ jsonValue a.2

def Format.line (f : Format) (time : Option Text) (r : Record) : Text :=
  match f with
  | plain => [Rune.char ' '].intercalate ((r.fields time).map plainPair)
  | json => "\x7b" ++ [Rune.char ','].intercalate ((r.fields time).map jsonPair) ++ "\x7d"

structure Logger where
  level : Level := .info
  format : Format := .plain
deriving DecidableEq

namespace Logger

def admits (l : Logger) (r : Record) : Bool := l.level.severity ≤ r.level.severity

def ofNames (level format : String) : Except String Logger :=
  match Level.ofName? level with
  | none => .error (Level.unknown level)
  | some level =>
    match Format.ofLooseName? format with
    | none => .error (Format.unknown format)
    | some format => .ok { level, format }

end Logger

end Tortoise.Log
