import Tortoise.Text.Number
import Tortoise.Text.Quoted

/-!
# Command-line flags

Arguments are put in order first, flags with their values in front of everything else, so that
flags may stand anywhere. Then flags are read up to the first argument that is none. A flag starts
with one or two dashes; its value follows behind `=` or as the next argument. Switches need no
value and take one only behind `=`. The argument `--` ends the flags.
-/

namespace Tortoise

namespace Arguments

def isFlagLike (arg : String) : Bool := arg.startsWith "-" && arg != "-"

def isNumber (arg : String) : Bool := (Text.readDecimal arg).isOk

/-- The flags that never take the argument behind them. -/
def switches : List String := ["-h", "--help", "-help", "--dump", "-dump", "--trace", "-trace"]

def isComplete (arg : String) : Bool := arg.toList.contains '=' || switches.contains arg

def isValue (arg : String) : Bool := !isFlagLike arg || isNumber arg

structure Roles where
  /-- Flags and their values. -/
  flags : List String := []
  positional : List String := []
  /-- Whether `--` ended the flags. -/
  ended : Bool := false
deriving DecidableEq

def Roles.addFlag (r : Roles) (arg : String) : Roles := { r with flags := arg :: r.flags }

def Roles.addPositional (r : Roles) (arg : String) : Roles :=
  { r with positional := arg :: r.positional }

/-- The roles of arguments; `pending` says that a flag in front of them lacks its value. -/
def rolesAfter : (pending : Bool) → List String → Roles
  | _, [] => {}
  | pending, arg :: rest =>
    if pending && isValue arg then (rolesAfter false rest).addFlag arg
    else if arg == "--" then { positional := rest, ended := true }
    else if isFlagLike arg then (rolesAfter (!isComplete arg) rest).addFlag arg
    else (rolesAfter false rest).addPositional arg

def roles (args : List String) : Roles := rolesAfter false args

def reorder (args : List String) : List String :=
  let r := roles args
  r.flags ++ (if r.ended then ["--"] else []) ++ r.positional

end Arguments

inductive Flag where
  | timeout
  | logLevel
  | logFormat
  | maxSteps
  | maxExprLen
  | encoding
  | dump
  | emit
  | trace
  | config
  | help
deriving DecidableEq

namespace Flag

def names : List (String × Flag) :=
  [("timeout", timeout), ("t", timeout), ("log-level", logLevel), ("l", logLevel),
   ("log-format", logFormat), ("max-steps", maxSteps), ("max-expr-len", maxExprLen),
   ("encoding", encoding), ("dump", dump), ("emit", emit), ("trace", trace), ("config", config),
   ("help", help), ("h", help)]

def ofName? (name : String) : Option Flag := names.lookup name

def isSwitch : Flag → Bool
  | dump | trace | help => true
  | _ => false

end Flag

/-- The flags that were given, each with its last value. -/
structure Flags where
  timeout : Option Int64 := none
  logLevel : Option String := none
  logFormat : Option String := none
  maxSteps : Option Int64 := none
  maxExprLen : Option Int64 := none
  encoding : Option String := none
  dump : Option Bool := none
  emit : Option String := none
  trace : Option Bool := none
  config : Option String := none
  help : Option Bool := none
deriving DecidableEq

inductive FlagError where
  | badSyntax (arg : String)
  | unknown (name : String)
  | noValue (name : String)
  | badNumber (value name : String) (error : Text.NumberError)
  | badTruth (value name : String)
deriving DecidableEq

def FlagError.message : FlagError → String
  | badSyntax arg => "bad flag syntax: " ++ arg
  | unknown name => "flag provided but not defined: -" ++ name
  | noValue name => "flag needs an argument: -" ++ name
  | badNumber value name error =>
    let reason := match error with
      | .notANumber => "parse error"
      | .outOfRange => "value out of range"
    "invalid value " ++ Text.quote value ++ " for flag -" ++ name ++ ": " ++ reason
  | badTruth value name =>
    "invalid boolean value " ++ Text.quote value ++ " for -" ++ name ++ ": parse error"

namespace Flags

def truth? (word : String) : Option Bool :=
  if ["1", "t", "T", "TRUE", "true", "True"].contains word then some true
  else if ["0", "f", "F", "FALSE", "false", "False"].contains word then some false
  else none

def number (name value : String) : Except FlagError Int64 :=
  (Text.readNumeral value).mapError (.badNumber value name)

def truth (name value : String) : Except FlagError Bool :=
  match truth? value with
  | some b => .ok b
  | none => .error (.badTruth value name)

def set (fs : Flags) (flag : Flag) (name value : String) : Except FlagError Flags :=
  match flag with
  | .timeout => return { fs with timeout := some (← number name value) }
  | .logLevel => return { fs with logLevel := some value }
  | .logFormat => return { fs with logFormat := some value }
  | .maxSteps => return { fs with maxSteps := some (← number name value) }
  | .maxExprLen => return { fs with maxExprLen := some (← number name value) }
  | .encoding => return { fs with encoding := some value }
  | .dump => return { fs with dump := some (← truth name value) }
  | .emit => return { fs with emit := some value }
  | .trace => return { fs with trace := some (← truth name value) }
  | .config => return { fs with config := some value }
  | .help => return { fs with help := some (← truth name value) }

structure Spelling where
  name : String
  value : Option String
deriving DecidableEq

def spelling (arg : String) : Except FlagError Spelling :=
  let body := match arg.toList with
    | '-' :: '-' :: rest => rest
    | '-' :: rest => rest
    | cs => cs
  match body with
  | [] => .error (.badSyntax arg)
  | c :: _ =>
    if c == '-' || c == '=' then .error (.badSyntax arg)
    else
      let name := body.takeWhile (· != '=')
      let value := match body.drop name.length with
        | [] => none
        | _ :: value => some (String.ofList value)
      .ok ⟨String.ofList name, value⟩

/-- Reads flags after those already given; also gives the arguments behind them. -/
def parseFrom (fs : Flags) : List String → Except FlagError (Flags × List String)
  | [] => .ok (fs, [])
  | arg :: rest =>
    if !Arguments.isFlagLike arg then .ok (fs, arg :: rest)
    else if arg == "--" then .ok (fs, rest)
    else do
      let s ← spelling arg
      match Flag.ofName? s.name with
      | none => throw (.unknown s.name)
      | some flag =>
        match s.value with
        | some value => parseFrom (← fs.set flag s.name value) rest
        | none =>
          if flag.isSwitch then parseFrom (← fs.set flag s.name "true") rest
          else match rest with
            | [] => throw (.noValue s.name)
            | value :: after => parseFrom (← fs.set flag s.name value) after

def parse (args : List String) : Except FlagError (Flags × List String) :=
  parseFrom {} (Arguments.reorder args)

end Flags

end Tortoise
