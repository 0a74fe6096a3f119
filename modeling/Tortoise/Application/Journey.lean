import Tortoise.Application.World
import Tortoise.Machine.Host
import Tortoise.Settings.Basic
import Tortoise.Turtle.Basic

/-!
# Journeys

A journey is the run of a program by a machine whose actions are performed by a turtle. The
machine works in slices of a fixed number of instructions; between slices the records of the last
one are logged and the clock is looked at.
-/

namespace Tortoise

structure Journey where
  turtle : Turtle := {}
  /-- What the turtle did, latest first, if a trace is wanted. -/
  history : List Operation := []
  /-- The records that are still to be logged, latest first. -/
  records : List Log.Record := []
  /-- Why the journey is to stop. -/
  stop : Option Cause := none

namespace Journey

def record (logger : Log.Logger) (r : Log.Record) (j : Journey) : Journey :=
  if logger.admits r then { j with records := r :: j.records } else j

def operationRecord (op : Operation) : Log.Record :=
  { level := .debug, message := "[Turtle] " ++ op.name, attrs := op.attrs }

def diagnosticRecord (d : RuntimeError) : Log.Record :=
  { level := .warn, message := "Runtime error",
    attrs := [("type", .text d.kind.name), ("pc", .int d.pc), ("message", .text d.detail)] }

def host (logger : Log.Logger) (trace : Bool) : Host Journey where
  act j action n :=
    let (turtle, op) := j.turtle.perform action n
    let history := if trace then op :: j.history else j.history
    ({ j with turtle, history }.record logger (operationRecord op), .proceed)
  note j d := j.record logger (diagnosticRecord d)
  stop j := j.stop

def slice : Nat := 4096

/-- Whether a timeout is over after some nanoseconds; a timeout that is not positive never is. -/
def isOver (timeout : Duration) (elapsed : Nat) : Bool :=
  0 < timeout.nanoseconds && timeout.nanoseconds.toInt ≤ elapsed

variable {m : Type → Type} [Monad m] [World m]

def logAll (format : Log.Format) : List Log.Record → m Unit
  | [] => return ()
  | r :: rest => do
    World.log format r
    logAll format rest

/-- Runs a machine for a number of slices. A run that needs more is cancelled. -/
@[specialize]
def travel (s : Settings) (start : Nat) : (slices : Nat) → Journey → Machine →
    m (Journey × Machine × Except RunError Unit)
  | 0, j, machine =>
    return (j, machine, .error (.runtime (.stopped .cancelled machine.timeout machine.pc)))
  | slices + 1, j, machine => do
    let elapsed := (← World.now) - start
    let stop := if isOver s.timeout elapsed then some .deadline else none
    let (j, machine, outcome) := machine.run (host s.logger s.trace) slice 0 { j with stop }
    logAll s.format j.records.reverse
    let j := { j with records := [] }
    match outcome with
    | some outcome => return (j, machine, outcome)
    | none => travel s start slices j machine

end Journey

end Tortoise
