import Tortoise.Machine.Env
import Tortoise.Machine.Error

/-!
# The machine

A machine executes a program one instruction at a time. It halts at the end of the program. An
invalid program is never executed, and a machine with a step limit executes no more instructions
than that. Faults of evaluation are recorded up to a bound and counted beyond it.

What an action does is left to `Performer`: it gets the state of the host and the machine, whose
instruction is not yet completed, and may change both.
-/

namespace Tortoise

def maxDiagnostics : Nat := 1000

structure Machine where
  program : Program
  /-- The error that every step reports if the program is invalid. -/
  invalid : Option RuntimeError := none
  /-- The most instructions to execute; 0 means no limit. -/
  limit : Nat := 0
  timeout : Duration := .zero
  pc : Nat := 0
  steps : Nat := 0
  env : Env := {}
  diagnostics : Array RuntimeError := #[]
  /-- The number of diagnostics beyond the recorded ones. -/
  dropped : Nat := 0
  running : Bool := false
deriving DecidableEq

namespace Machine

/-- A machine at the start of a program. A limit that is not positive is none. -/
def new (program : Program) (limit : Int) (timeout : Duration) : Machine :=
  { program, limit := limit.toNat, timeout,
    invalid := program.invalid?.map fun e => .ofInvalid e.message }

def isHalted (m : Machine) : Bool := m.program.size ≤ m.pc

def diagnosticCount (m : Machine) : Nat := m.diagnostics.size + m.dropped

def valuation (m : Machine) : Valuation := m.env.get?

def record (m : Machine) (d : RuntimeError) : Machine :=
  if m.diagnostics.size < maxDiagnostics then { m with diagnostics := m.diagnostics.push d }
  else { m with dropped := m.dropped + 1 }

def isExhausted (m : Machine) : Bool := m.limit != 0 && m.limit ≤ m.steps

def commit (m : Machine) (next : Nat) : Machine := { m with steps := m.steps + 1, pc := next }

end Machine

abbrev Performer (σ : Type) := σ → Machine → Action → Int64 → σ × Machine

abbrev Notifier (σ : Type) := σ → RuntimeError → σ

namespace Machine

variable {σ : Type}

def report (note : Notifier σ) (ins : Instruction) (faults : List Fault) (s : σ) (m : Machine) :
    σ × Machine :=
  faults.foldl (fun (s, m) fault =>
    let d := RuntimeError.ofFault fault m.pc ins.render
    (note s d, m.record d)) (s, m)

def evaluate (note : Notifier σ) (ins : Instruction) (s : σ) (m : Machine) :
    Int64 × σ × Machine :=
  let (value, faults) := ins.expr.eval m.valuation
  (value, report note ins faults s m)

def execute (note : Notifier σ) (perform : Performer σ) (ins : Instruction) (s : σ)
    (m : Machine) : σ × Machine × Nat :=
  let next := m.pc + 1
  match ins.command with
  | .assign =>
    let (value, s, m) := evaluate note ins s m
    (s, { m with env := m.env.set ins.name value }, next)
  | .jump => (s, m, ins.target.toNat)
  | .branch =>
    let (value, s, m) := evaluate note ins s m
    (s, m, if value != 0 then ins.onTrue.toNat else ins.onFalse.toNat)
  | .action =>
    let (value, s, m) := evaluate note ins s m
    match Action.ofCode? ins.action with
    | some a =>
      let (s, m) := perform s m a value
      (s, m, next)
    | none => (s, m, next)
  | .unset => (s, { m with env := m.env.erase ins.name }, next)
  | .unknown _ _ => (s, m, next)

/-- Executes the instruction at hand and says whether the program goes on. A halted machine
stays as it is. -/
def stepWith (note : Notifier σ) (perform : Performer σ) (s : σ) (m : Machine) :
    σ × Machine × Except RuntimeError Bool :=
  match m.invalid with
  | some e => (s, m, .error e)
  | none =>
    match m.program[m.pc]? with
    | none => (s, m, .ok false)
    | some ins =>
      if m.isExhausted then (s, m, .error (.stepLimit m.limit m.pc))
      else
        let (s, m, next) := execute note perform ins s m
        let m := m.commit next
        (s, m, .ok (!m.isHalted))

end Machine

end Tortoise
