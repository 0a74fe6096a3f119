import Tortoise.Expr.Operator
import Tortoise.Text.Number

/-!
# Expressions

Expressions are trees over 64-bit integers that wrap. There are no booleans: comparisons and
the logical operators yield 1 or 0, and every nonzero value counts as true.

A tree is complete if each operator has its operands and is one of the language's, each
variable has a name, and each node is of a kind known here. The compiler builds complete trees
only; trees from outside need not be.
-/

namespace Tortoise

inductive Expr where
  /-- No expression at all. -/
  | absent
  /-- Zero, where an argument is left out. -/
  | null
  | literal (value : Int64)
  | var (name : Text)
  | unary (op : Prefix) (operand : Expr)
  | binary (op : Infix) (left right : Expr)
  /-- A node of a kind defined elsewhere, known by the name of that kind. -/
  | foreign (kind : String)
deriving DecidableEq

namespace Expr

def isAbsent : Expr → Bool
  | absent => true
  | _ => false

def isComplete : Expr → Bool
  | absent => false
  | null => true
  | literal _ => true
  | var name => !name.isEmpty
  | unary op e => op.isKnown && e.isComplete
  | binary op l r => op.isKnown && l.isComplete && r.isComplete
  | foreign _ => false

def vars : Expr → List Text
  | var name => [name]
  | unary _ e => e.vars
  | binary _ l r => l.vars ++ r.vars
  | _ => []

def infixSign : Infix → Text
  | .and => "&"
  | .or => "|"
  | op => op.spelling

/-- Fully parenthesised infix writing. -/
def render : Expr → Text
  | absent => "0"
  | null => "0"
  | literal v => Text.ofInt64 v
  | var name => name
  | unary op e => op.spelling ++ e.render
  | binary op l r => "(" ++ l.render ++ infixSign op ++ r.render ++ ")"
  | foreign _ => "0"

end Expr

end Tortoise
