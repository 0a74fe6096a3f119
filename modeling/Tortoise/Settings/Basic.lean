import Tortoise.Charset.Decode
import Tortoise.Duration
import Tortoise.Log.Line
import Tortoise.Settings.ConfigFile
import Tortoise.Settings.Flags

/-!
# Settings

A setting is taken from the first of four sources that has it: a flag, an environment variable, the
configuration file, the default. Values are checked after that, so a bad value that is overridden
does no harm.
-/

namespace Tortoise

/-- The environment variables that matter, empty if not set. -/
structure Environment where
  logLevel : String := ""
  timeout : String := ""
  maxSteps : String := ""
deriving DecidableEq

/-- A decimal that is not negative; anything else in a variable does not count. -/
def Environment.count? (value : String) : Option Int64 :=
  match Text.readDecimal value with
  | .ok n => if n < 0 then none else some n
  | .error _ => none

inductive SettingsError where
  | flag (error : FlagError)
  | config (error : ConfigError)
  | negative (name : String) (value : Int64)
  | badLevel (name : String)
  | badFormat (name : String)
  | badEncoding (name : String)
  | noProgram
  | tooMany (args : List String)
deriving DecidableEq

def SettingsError.message : SettingsError → String
  | flag error => error.message
  | config error => error.message
  | negative name value => s!"{name} must be non-negative, got " ++ Text.ofInt64 value
  | badLevel name => Log.Level.unknown name ++ " (must be debug, info, warn, or error)"
  | badFormat name => Log.Format.unknown name ++ " (must be text or json)"
  | badEncoding name => Charset.unsupported name
  | noProgram => "no program file given"
  | tooMany args => "too many arguments: " ++ " ".intercalate args

structure Wishes where
  timeout : Int64
  logLevel : String
  logFormat : String
  maxSteps : Int64
  maxExprLen : Int64
  encoding : String
  trace : Bool
deriving DecidableEq

namespace Wishes

def default : Wishes where
  timeout := 0
  logLevel := "info"
  logFormat := "text"
  maxSteps := 0
  maxExprLen := 0
  encoding := "utf-8"
  trace := false

def fromFile {α : Type} (file : Option ConfigFile) (key : String) (value : ConfigFile → α) :
    Option α :=
  match file with
  | some c => if c.defines key then some (value c) else none
  | none => none

/-- The first of the sources that has a value decides. -/
def gather (flags : Flags) (env : Environment) (file : Option ConfigFile) : Wishes where
  timeout := (flags.timeout <|> Environment.count? env.timeout
    <|> fromFile file "timeout" ConfigFile.timeout).getD default.timeout
  logLevel :=
    let fromEnv := if env.logLevel.isEmpty then none else some (Text.lowercase env.logLevel)
    (flags.logLevel <|> fromEnv
      <|> fromFile file "log-level" (Text.lowercase ·.logLevel)).getD default.logLevel
  logFormat := (flags.logFormat
    <|> fromFile file "log-format" ConfigFile.logFormat).getD default.logFormat
  maxSteps := (flags.maxSteps <|> Environment.count? env.maxSteps
    <|> fromFile file "max-steps" ConfigFile.maxSteps).getD default.maxSteps
  maxExprLen := (flags.maxExprLen
    <|> fromFile file "max-expr-len" ConfigFile.maxExprLen).getD default.maxExprLen
  encoding := (flags.encoding
    <|> fromFile file "encoding" ConfigFile.encoding).getD default.encoding
  trace := (flags.trace <|> fromFile file "trace" ConfigFile.trace).getD default.trace

end Wishes

structure Settings where
  program : String
  timeout : Duration
  level : Log.Level
  format : Log.Format
  maxSteps : Int64
  maxExprLen : Int64
  encoding : String
  dump : Bool
  /-- Where to save the program, empty for nowhere. -/
  emit : String
  trace : Bool
  /-- The configuration file that was read, empty if none. -/
  config : String
deriving DecidableEq

namespace Settings

def logger (s : Settings) : Log.Logger := ⟨s.level, s.format⟩

def soleArgument : List String → Except SettingsError String
  | [] => .error .noProgram
  | [arg] => .ok arg
  | args => .error (.tooMany args)

def check (flags : Flags) (config : String) (positional : List String) (w : Wishes) :
    Except SettingsError Settings := do
  if w.timeout < 0 then throw (.negative "timeout" w.timeout)
  if w.maxSteps < 0 then throw (.negative "max-steps" w.maxSteps)
  if w.maxExprLen < 0 then throw (.negative "max-expr-len" w.maxExprLen)
  let some level := Log.Level.ofName? w.logLevel | throw (.badLevel w.logLevel)
  let some format := Log.Format.ofName? w.logFormat | throw (.badFormat w.logFormat)
  if (Charset.ofName? w.encoding).isNone then throw (.badEncoding w.encoding)
  let program ← soleArgument positional
  return { program, timeout := .ofSeconds w.timeout, level, format, maxSteps := w.maxSteps,
           maxExprLen := w.maxExprLen, encoding := w.encoding, dump := flags.dump.getD false,
           emit := flags.emit.getD "", trace := w.trace, config }

end Settings

inductive Invocation where
  | help (flags : Flags)
  | run (settings : Settings)
deriving DecidableEq

namespace Invocation

variable {m : Type → Type} [Monad m] [FileSystem m]

def loadConfig (path : String) : m (Except ConfigError (Option ConfigFile)) := do
  if path.isEmpty then return .ok none
  match ← ConfigFile.load path with
  | .error e => return .error e
  | .ok c => return .ok (some c)

/-- Reads a command line. Without a configuration file among the flags the one of the working
directory is used if there is one. -/
def ofArguments (env : Environment) (args : List String) :
    m (Except SettingsError Invocation) := do
  match Flags.parse args with
  | .error e => return .error (.flag e)
  | .ok (flags, positional) =>
    if flags.help.getD false then return .ok (.help flags)
    let named := flags.config.getD ""
    let path ← if named.isEmpty then ConfigFile.find "." else pure named
    match ← loadConfig path with
    | .error e => return .error (.config e)
    | .ok file =>
      return (Settings.check flags path positional (Wishes.gather flags env file)).map .run

end Invocation

end Tortoise
