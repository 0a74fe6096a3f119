import Tortoise.Expr.Eval

/-!
# Faults are soft

A fault is a report and nothing else. If every variable without a value had the value 0, each
expression would have the same value, and of the faults the divisions by zero would be left. The
value and the faults depend on the variables of the expression only.

Which faults there are can be read off the nodes that an evaluation comes to: each of them has a
fault of its own or none. The right side of a logical operator whose left side decides is not among
these nodes.
-/

namespace Tortoise

def Valuation.completed (env : Valuation) : Valuation := fun name => some ((env name).getD 0)

def Fault.isDivision : Fault → Bool
  | divisionByZero _ => true
  | undefinedVariable _ => false

/-- Whether the left side decides a logical operator, by whether it is zero. -/
def Infix.isDecided (leftIsZero : Bool) : Infix → Bool
  | and => leftIsZero
  | or => !leftIsZero
  | _ => false

namespace Expr

/-- The nodes that an evaluation comes to, each behind its operands. `isZero` says which operands
are zero, for the logical operators that may be decided. An operator of another language has no
value of its own and looks at no operand. -/
def evaluated (isZero : Expr → Bool) : Expr → List Expr
  | unary (.unknown s h) e => [unary (.unknown s h) e]
  | unary op e => e.evaluated isZero ++ [unary op e]
  | binary (.unknown s h) l r => [binary (.unknown s h) l r]
  | binary op l r =>
    l.evaluated isZero ++ (if op.isDecided (isZero l) then [] else r.evaluated isZero) ++
      [binary op l r]
  | e => [e]

def isZero (env : Valuation) (e : Expr) : Bool := (e.eval env).1 == 0

def ownFault? (env : Valuation) : Expr → Option Fault
  | var name => if (env name).isSome then none else some (.undefinedVariable name)
  | binary .div l r =>
    if r.isZero env then some (.divisionByZero (binary .div l r).render) else none
  | _ => none

variable {env : Valuation}

theorem evaluated_binary {op : Infix} (h : op.isKnown = true) (isZero : Expr → Bool)
    (l r : Expr) : (binary op l r).evaluated isZero =
      l.evaluated isZero ++ (if op.isDecided (isZero l) then [] else r.evaluated isZero) ++
        [binary op l r] := by
  cases op with
  | unknown => cases h
  | _ => rfl

theorem eval_completed (env : Valuation) (e : Expr) :
    e.eval env.completed = ((e.eval env).1, (e.eval env).2.filter Fault.isDivision) := by
  induction e with
  | absent | null | literal | foreign => rfl
  | var name => cases h : env name <;> simp [eval, Valuation.completed, h, Fault.isDivision]
  | unary op e ih => cases op <;> simp [eval, ih]
  | binary op l r ihl ihr =>
      cases op with
      | and | or =>
          simp only [eval, ihl, ihr]
          split <;> simp
      | div =>
          simp only [eval, ihl, ihr]
          split <;> simp [List.filter_cons, Fault.isDivision]
      | unknown => rfl
      | _ => simp [eval, ihl, ihr]

theorem eval_congr {env' : Valuation} {e : Expr} (h : ∀ name ∈ e.vars, env' name = env name) :
    e.eval env' = e.eval env := by
  induction e with
  | absent | null | literal | foreign => rfl
  | var name => simp only [eval, h name (List.mem_singleton.2 rfl)]
  | unary op e ih =>
      have he := ih h
      cases op <;> simp only [eval, he]
  | binary op l r ihl ihr =>
      obtain ⟨hleft, hright⟩ := List.forall_mem_append.1 h
      have hl := ihl hleft
      have hr := ihr hright
      cases op <;> simp only [eval, hl, hr]

/-- A decided operator has the value and the faults of its left side, whatever is on its right. -/
theorem eval_of_isDecided {op : Infix} {l : Expr} (h : op.isDecided (l.isZero env) = true)
    (r : Expr) : (binary op l r).eval env = (truth (!l.isZero env), (l.eval env).2) := by
  cases op with
  | and =>
      have hzero : (l.eval env).1 == 0 := h
      simp [eval, isZero, hzero, truth]
  | or =>
      have hzero : ((l.eval env).1 == 0) = false := by simpa [Infix.isDecided, isZero] using h
      simp [eval, isZero, hzero, truth, bne]
  | _ => cases h

/-- Every fault is the own fault of a node that the evaluation comes to, in that order. -/
theorem faults_eq (env : Valuation) (e : Expr) :
    (e.eval env).2 = (e.evaluated (isZero env)).filterMap (ownFault? env) := by
  induction e with
  | absent | null | literal | foreign => rfl
  | var name => cases h : env name <;> simp [eval, evaluated, ownFault?, h]
  | unary op e ih => cases op <;> simp [eval, evaluated, ownFault?, ih]
  | binary op l r ihl ihr =>
      cases hdecided : op.isDecided (l.isZero env) with
      | true =>
          rw [eval_of_isDecided hdecided r, ihl]
          cases op <;> simp_all [evaluated, ownFault?, Infix.isDecided]
      | false =>
          cases op with
          | and =>
              have hzero : ((l.eval env).1 == 0) = false := hdecided
              simp [eval, evaluated, ownFault?, hdecided, hzero, ihl, ihr]
          | or =>
              have hzero : ((l.eval env).1 == 0) = true := by
                simpa [Infix.isDecided, isZero] using hdecided
              simp [eval, evaluated, ownFault?, hdecided, hzero, ihl, ihr, bne]
          | div =>
              simp only [eval, evaluated, hdecided, ihl, ihr]
              split <;> simp_all [ownFault?, isZero]
          | unknown => rfl
          | _ => simp [eval, evaluated, ownFault?, hdecided, ihl, ihr]

/-- Soft faults never change a value. With 0 for every variable without a value, an expression has
the same value, and its faults are the divisions by zero that it has anyway. What it evaluates to
depends on its own variables only. Its faults are those of the nodes that the evaluation comes to,
one after the other; so an operand that a decided operator leaves out has no part in them. -/
theorem faults_keep_values (env : Valuation) (e : Expr) :
    e.eval env.completed = ((e.eval env).1, (e.eval env).2.filter Fault.isDivision) ∧
      (∀ env' : Valuation, (∀ name ∈ e.vars, env' name = env name) → e.eval env' = e.eval env) ∧
      (e.eval env).2 = (e.evaluated (isZero env)).filterMap (ownFault? env) ∧
      ∀ op l r, op.isDecided (l.isZero env) = true →
        (binary op l r).evaluated (isZero env) = l.evaluated (isZero env) ++ [binary op l r] ∧
          ((binary op l r).eval env).2 = (l.eval env).2 := by
  refine ⟨eval_completed env e, fun env' h => eval_congr h, faults_eq env e, ?_⟩
  intro op l r hdecided
  constructor
  · have hknown : op.isKnown = true := by
      cases op with
      | unknown => cases hdecided
      | _ => rfl
    simp [evaluated_binary hknown, hdecided]
  · rw [eval_of_isDecided hdecided r]

/-- `X/(0 and Y) or Z` without any values: `Y` is left out, and the division counts as 0. -/
theorem left_out_operand_has_no_fault :
    let division : Expr := .binary .div (.var "X") (.binary .and (.literal 0) (.var "Y"))
    let e : Expr := .binary .or division (.var "Z")
    let env : Valuation := fun _ => none
    let other : Valuation := fun name => if name = Text.ofString "W" then some 7 else none
    e.eval env = (0, [.undefinedVariable "X", .divisionByZero "(X/(0&Y))",
        .undefinedVariable "Z"]) ∧
      e.eval env.completed = (0, [.divisionByZero "(X/(0&Y))"]) ∧
      e.eval other = e.eval env ∧
      ((Expr.binary .and (.literal 0) (.var "Y")).eval env).2 = [] := by
  intro division e env other
  obtain ⟨hcompleted, hcongr, -, hdecided⟩ := faults_keep_values env e
  have heval : e.eval env = (0, [.undefinedVariable "X", .divisionByZero "(X/(0&Y))",
      .undefinedVariable "Z"]) := by decide
  refine ⟨heval, ?_, hcongr other (by decide), (hdecided .and _ _ rfl).2⟩
  rw [hcompleted, heval]
  rfl

end Expr

end Tortoise
