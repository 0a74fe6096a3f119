import Tortoise.Expr.Basic
import Tortoise.Text.Quoted

/-!
# Instructions

An instruction has a command and six fields, of which the command uses some:

    Assign   name, expr            stores a value
    Jump     target                goes on elsewhere
    Branch   expr, onTrue, onFalse goes on at one of two places
    Action   action, expr          asks the host for something
    Unset    name                  forgets a variable

The fields that a command does not use are kept as they are. Places are indices into the
program, and −1 marks one that is still open.
-/

namespace Tortoise

inductive Action where
  | color
  | thickness
  | stroke
  | move
  | turn
deriving DecidableEq, Repr

namespace Action

def name : Action → String
  | color => "color"
  | thickness => "thickness"
  | stroke => "stroke"
  | move => "move"
  | turn => "turn"

def code : Action → UInt8
  | color => 0
  | thickness => 1
  | stroke => 2
  | move => 3
  | turn => 4

def ofCode? (n : UInt8) : Option Action :=
  match n.toNat with
  | 0 => some color
  | 1 => some thickness
  | 2 => some stroke
  | 3 => some move
  | 4 => some turn
  | _ => none

theorem ofCode?_code (a : Action) : ofCode? a.code = some a := by cases a <;> rfl

end Action

def commandSpellings : List Text := ["Assign", "Jump", "Branch", "Action", "Unset"]

inductive Command where
  | assign
  | jump
  | branch
  | action
  | unset
  | unknown (spelling : Text) (foreign : spelling ∉ commandSpellings)
deriving DecidableEq

namespace Command

def spelling : Command → Text
  | assign => "Assign"
  | jump => "Jump"
  | branch => "Branch"
  | action => "Action"
  | unset => "Unset"
  | unknown s _ => s

def ofSpelling (s : Text) : Command :=
  if foreign : s ∉ commandSpellings then unknown s foreign
  else if s = assign.spelling then assign
  else if s = jump.spelling then jump
  else if s = branch.spelling then branch
  else if s = action.spelling then action
  else unset

theorem spelling_ofSpelling (s : Text) : (ofSpelling s).spelling = s := by
  unfold ofSpelling
  repeat' split
  all_goals simp_all [spelling, commandSpellings]

theorem ofSpelling_spelling (c : Command) : ofSpelling c.spelling = c := by
  cases c with
  | unknown s foreign => simp [ofSpelling, spelling, foreign]
  | _ => rfl

end Command

structure Instruction where
  command : Command
  name : Text := []
  expr : Expr := .absent
  target : Int := 0
  onTrue : Int := 0
  onFalse : Int := 0
  action : UInt8 := 0
deriving DecidableEq

namespace Instruction

def unresolved : Int := -1

def assign (name : Text) (expr : Expr) : Instruction :=
  { command := .assign, name, expr }

def jump (target : Int) : Instruction :=
  { command := .jump, target }

def branch (expr : Expr) (onTrue onFalse : Int) : Instruction :=
  { command := .branch, expr, onTrue, onFalse }

def act (action : Action) (expr : Expr) : Instruction :=
  { command := .action, action := action.code, expr }

def unset (name : Text) : Instruction :=
  { command := .unset, name }

def placeText (place : Int) : String :=
  if place = unresolved then "?" else Text.ofInt place

def actionText (code : UInt8) : String :=
  match Action.ofCode? code with
  | some a => a.name
  | none => s!"action({code.toNat})"

def render (ins : Instruction) : Text :=
  match ins.command with
  | .assign => "assign " ++ ins.name ++ " " ++ ins.expr.render
  | .jump => "jump " ++ placeText ins.target
  | .branch =>
    "branch " ++ ins.expr.render ++ " " ++ placeText ins.onTrue ++ " " ++ placeText ins.onFalse
  | .action => actionText ins.action ++ " " ++ ins.expr.render
  | .unset => "unset " ++ ins.name
  | .unknown spelling _ => "<" ++ spelling ++ ">"

inductive Flaw where
  | assignIncomplete
  | jumpOutOfRange (target : Int) (size : Nat)
  | branchIncomplete
  | branchOutOfRange (onTrue onFalse : Int) (size : Nat)
  | unknownAction (code : UInt8)
  | actionIncomplete
  | unsetIncomplete
  | unknownCommand (spelling : Text)
deriving DecidableEq

def Flaw.message : Flaw → String
  | assignIncomplete => "assign needs a name and an expression"
  | jumpOutOfRange target size => s!"jump target {target} out of range [0, {size}]"
  | branchIncomplete => "branch has no condition"
  | branchOutOfRange onTrue onFalse size =>
    s!"branch targets {onTrue}/{onFalse} out of range [0, {size}]"
  | unknownAction code => s!"unknown action {code.toNat}"
  | actionIncomplete => "action has no argument"
  | unsetIncomplete => "unset needs a name"
  | unknownCommand spelling => "unknown command " ++ Text.quote spelling

/-- A place is in range from 0 to the end of the program, the end included. -/
def inRange (size : Nat) (place : Int) : Bool := 0 ≤ place && place ≤ size

def flaw? (size : Nat) (ins : Instruction) : Option Flaw :=
  match ins.command with
  | .assign =>
    if ins.name.isEmpty || ins.expr.isAbsent then some .assignIncomplete else none
  | .jump =>
    if inRange size ins.target then none else some (.jumpOutOfRange ins.target size)
  | .branch =>
    if ins.expr.isAbsent then some .branchIncomplete
    else if inRange size ins.onTrue && inRange size ins.onFalse then none
    else some (.branchOutOfRange ins.onTrue ins.onFalse size)
  | .action =>
    if (Action.ofCode? ins.action).isNone then some (.unknownAction ins.action)
    else if ins.expr.isAbsent then some .actionIncomplete
    else none
  | .unset => if ins.name.isEmpty then some .unsetIncomplete else none
  | .unknown spelling _ => some (.unknownCommand spelling)

end Instruction

end Tortoise
