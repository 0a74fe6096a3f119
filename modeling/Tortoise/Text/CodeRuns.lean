/-!
# Sets of code points

A set of code points is written as ascending runs, each with a first and a last member and
the step between neighbours. The first run that ends at or after a code point decides.
-/

namespace Tortoise.Text

structure CodeRun where
  first : Nat
  last : Nat
  step : Nat

def CodeRun.contains (run : CodeRun) (n : Nat) : Bool :=
  run.first ≤ n && n ≤ run.last && (n - run.first) % run.step == 0

abbrev CodeRuns := List CodeRun

def CodeRuns.contains : CodeRuns → Nat → Bool
  | [], _ => false
  | run :: rest, n => if n ≤ run.last then run.contains n else CodeRuns.contains rest n

end Tortoise.Text
