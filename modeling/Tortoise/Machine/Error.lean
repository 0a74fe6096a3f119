import Tortoise.Duration
import Tortoise.Expr.Eval
import Tortoise.Program.Basic

/-!
# Runtime errors

A fatal error stops a run; a diagnostic records a fault after which the run goes on. Both carry
the index and the listing of the instruction at hand where these are known.
-/

namespace Tortoise

inductive ErrorKind where
  | invalidProgram
  | stepLimitExceeded
  | cancelled
  | timeout
  | divisionByZero
  | undefinedVariable
  | other (name : Text)
deriving DecidableEq

namespace ErrorKind

def name : ErrorKind → Text
  | invalidProgram => "INVALID_PROGRAM"
  | stepLimitExceeded => "STEP_LIMIT_EXCEEDED"
  | cancelled => "CANCELLED"
  | timeout => "TIMEOUT"
  | divisionByZero => "DIVISION_BY_ZERO"
  | undefinedVariable => "UNDEFINED_VARIABLE"
  | other name => name

def ofName (name : Text) : ErrorKind :=
  let known := [invalidProgram, stepLimitExceeded, cancelled, timeout, divisionByZero,
    undefinedVariable]
  (known.find? fun kind => kind.name == name).getD (other name)

def isFatal : ErrorKind → Bool
  | divisionByZero | undefinedVariable => false
  | _ => true

end ErrorKind

inductive Cause where
  | message (text : Text)
  | cancelled
  | deadline
  /-- A deadline reported with a detail in front. -/
  | wrappedDeadline (detail : Text)
deriving DecidableEq

namespace Cause

def text : Cause → Text
  | message text => text
  | cancelled => "context canceled"
  | deadline => "context deadline exceeded"
  | wrappedDeadline detail => detail ++ ": context deadline exceeded"

def isDeadline : Cause → Bool
  | deadline | wrappedDeadline _ => true
  | _ => false

end Cause

structure RuntimeError where
  kind : ErrorKind
  detail : Text
  /-- The instruction at hand, −1 if there is none. -/
  pc : Int := -1
  /-- The listing of that instruction, if known. -/
  context : Text := []
  cause : Option Cause := none
deriving DecidableEq

namespace RuntimeError

def message (e : RuntimeError) : Text :=
  let place : Text := if e.pc < 0 then [] else s!" at instruction {e.pc}"
  let listing : Text :=
    if e.pc < 0 || e.context.isEmpty then [] else " (" ++ e.context ++ ")"
  "[" ++ e.kind.name ++ "] " ++ e.detail ++ place ++ listing

def isFatal (e : RuntimeError) : Bool := e.kind.isFatal

def ofInvalid (reason : Text) : RuntimeError :=
  { kind := .invalidProgram, detail := "invalid program: " ++ reason, cause := some (.message reason) }

def stepLimit (limit : Int) (pc : Int) : RuntimeError :=
  { kind := .stepLimitExceeded, detail := s!"step limit of {limit} exceeded", pc }

/-- The error of a run that was stopped. A deadline counts as a timeout, and names the timeout
of the machine if it has one. -/
def stopped (cause : Cause) (timeout : Duration) (pc : Int) : RuntimeError :=
  if cause.isDeadline then
    { kind := .timeout, pc, cause := some cause,
      detail := if 0 < timeout.nanoseconds then "execution timed out after " ++ timeout.render
                else "execution deadline exceeded" }
  else { kind := .cancelled, detail := "execution cancelled", pc, cause := some cause }

def diagnostic (kind : ErrorKind) (detail : Text) (pc : Int) (context : Text) : RuntimeError :=
  let detail := match kind with
    | .divisionByZero => "division by zero in " ++ detail
    | .undefinedVariable => "undefined variable: " ++ detail
    | _ => detail
  { kind, detail, pc, context }

def ofFault (fault : Fault) (pc : Int) (context : Text) : RuntimeError :=
  match fault with
  | .divisionByZero division => diagnostic .divisionByZero division pc context
  | .undefinedVariable name => diagnostic .undefinedVariable name pc context

end RuntimeError

inductive RunError where
  /-- The machine was running already. -/
  | busy
  | runtime (error : RuntimeError)
deriving DecidableEq

def RunError.message : RunError → Text
  | busy => "VM is already running"
  | runtime error => error.message

def RunError.stopKind? : RunError → Option ErrorKind
  | runtime error =>
    if error.kind = .cancelled ∨ error.kind = .timeout then some error.kind else none
  | busy => none

end Tortoise
