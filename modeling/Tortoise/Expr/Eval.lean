import Tortoise.Expr.Basic

/-!
# Evaluation

Evaluation never fails. Reading a variable without a value and dividing by zero give 0 and
leave a fault behind; faults are listed in the order in which they occur. A logical operator
whose left side decides does not look at its right side.
-/

namespace Tortoise

/-- A mishap of an evaluation that goes on with the value 0. -/
inductive Fault where
  /-- A division by zero, with the division as it is written. -/
  | divisionByZero (division : Text)
  | undefinedVariable (name : Text)
deriving DecidableEq

abbrev Valuation := Text → Option Int64

def truth (b : Bool) : Int64 := if b then 1 else 0

namespace Infix

/-- The value of an operator that always looks at both operands; division is by a nonzero
number. -/
def apply (op : Infix) (l r : Int64) : Int64 :=
  match op with
  | add => l + r
  | sub => l - r
  | mul => l * r
  | div => l / r
  | equal => truth (l == r)
  | greater => truth (l > r)
  | less => truth (l < r)
  | and => truth (l != 0 && r != 0)
  | or => truth (l != 0 || r != 0)
  | unknown _ _ => 0

end Infix

namespace Expr

def eval (env : Valuation) : Expr → Int64 × List Fault
  | absent => (0, [])
  | null => (0, [])
  | literal v => (v, [])
  | var name =>
    match env name with
    | some v => (v, [])
    | none => (0, [.undefinedVariable name])
  | unary .negate e =>
    let (v, faults) := e.eval env
    (-v, faults)
  | unary .complement e =>
    let (v, faults) := e.eval env
    (truth (v == 0), faults)
  | unary (.unknown _ _) _ => (0, [])
  | binary (.unknown _ _) _ _ => (0, [])
  | binary .and l r =>
    let (a, faults) := l.eval env
    if a == 0 then (0, faults)
    else
      let (b, more) := r.eval env
      (truth (b != 0), faults ++ more)
  | binary .or l r =>
    let (a, faults) := l.eval env
    if a != 0 then (1, faults)
    else
      let (b, more) := r.eval env
      (truth (b != 0), faults ++ more)
  | binary .div l r =>
    let (a, faults) := l.eval env
    let (b, more) := r.eval env
    if b == 0 then (0, faults ++ more ++ [.divisionByZero (binary .div l r).render])
    else (a / b, faults ++ more)
  | binary op l r =>
    let (a, faults) := l.eval env
    let (b, more) := r.eval env
    (op.apply a b, faults ++ more)
  | foreign _ => (0, [])

end Expr

end Tortoise
