import Tortoise.Machine.Basic

/-!
# Hosts and runs

A host performs the actions of a program. From inside an action it may make one step or one run of
the very machine that performs it, and no more than that: what is said of every host is said of
hosts like this. A step made so executes the instruction at hand once more, since that is not yet
completed; a run made so is refused while a run is going on.

`run` executes instructions until the program halts, an error stops it or the host asks to stop,
which is looked at before every instruction. Runs take fuel, an upper bound for the number of
instructions of each run, because a program need not halt. Callbacks nest at most `depth` deep.
-/

namespace Tortoise

inductive Reaction where
  | proceed
  | step
  | run
deriving DecidableEq

structure Host (σ : Type) where
  /-- Performs an action. -/
  act : σ → Action → Int64 → σ × Reaction
  /-- Hears of a diagnostic. -/
  note : Notifier σ := fun s _ => s
  /-- Hears the outcome of a step it made. -/
  stepped : σ → Except RuntimeError Bool → σ := fun s _ => s
  /-- Hears the outcome of a run it made. -/
  ran : σ → Except RunError Unit → σ := fun s _ => s
  /-- Asks for a run to stop. -/
  stop : σ → Option Cause := fun _ => none

namespace Machine

variable {σ : Type}

/-- The loop of a run; `none` as its outcome means that the fuel was used up. -/
def runLoop (h : Host σ) (perform : Performer σ) : (fuel : Nat) → σ → Machine →
    σ × Machine × Option (Except RunError Unit)
  | 0, s, m => (s, m, none)
  | fuel + 1, s, m =>
    match h.stop s with
    | some cause => (s, m, some (.error (.runtime (.stopped cause m.timeout m.pc))))
    | none =>
      match stepWith h.note perform s m with
      | (s, m, .error e) => (s, m, some (.error (.runtime e)))
      | (s, m, .ok false) => (s, m, some (.ok ()))
      | (s, m, .ok true) => runLoop h perform fuel s m

def runWith (h : Host σ) (perform : Performer σ) (fuel : Nat) (s : σ) (m : Machine) :
    σ × Machine × Option (Except RunError Unit) :=
  if m.running then (s, m, some (.error .busy))
  else
    let (s, m, outcome) := runLoop h perform fuel s { m with running := true }
    (s, { m with running := false }, outcome)

/-- Lets the host perform an action and do what it wants to do with the machine then. -/
def perform (h : Host σ) (fuel : Nat) : (depth : Nat) → Performer σ
  | 0, s, m, a, value => ((h.act s a value).1, m)
  | depth + 1, s, m, a, value =>
    match h.act s a value with
    | (s, .proceed) => (s, m)
    | (s, .step) =>
      let (s, m, outcome) := stepWith h.note (perform h fuel depth) s m
      (h.stepped s outcome, m)
    | (s, .run) =>
      let (s, m, outcome) := runWith h (perform h fuel depth) fuel s m
      (outcome.elim s (h.ran s), m)

def step (h : Host σ) (fuel depth : Nat) (s : σ) (m : Machine) :
    σ × Machine × Except RuntimeError Bool :=
  stepWith h.note (perform h fuel depth) s m

def run (h : Host σ) (fuel depth : Nat) (s : σ) (m : Machine) :
    σ × Machine × Option (Except RunError Unit) :=
  runWith h (perform h fuel depth) fuel s m

end Machine

end Tortoise
