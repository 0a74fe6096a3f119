import Tortoise.Compile.Session

/-!
# Programs as trees

The grammar of programs over tokens, and the code of a program by recursion over its tree. `V` is
an expression token that reads as a variable and `E` any expression token that can be read.

    simple  := V = E | E reading as V = E | set color to (red | green | blue | E)
             | set thickness to E | start stroke | stop stroke | move [forward | backward] E
             | turn (left | right | E) | increment V | decrement V
    opening := if E | while E | until E | repeat E times
    body    := nothing | simple body | opening body end body | if E body else body end body

Code is placed at an index with a number of repeat blocks around it, so that every jump is known
when it is written.
-/

namespace Tortoise

inductive Simple where
  | assign (name : Text) (value : Expr)
  | increment (name : Text)
  | decrement (name : Text)
  | act (action : Action) (argument : Expr)

/-- What opens a block; a negated loop runs until its condition holds. -/
inductive Opening where
  | ifThen (cond : Expr)
  | loop (negated : Bool) (cond : Expr)
  | repeatLoop (count : Expr)

inductive Body where
  | done
  | simple (statement : Simple) (next : Body)
  | block (opening : Opening) (inner next : Body)
  | ifElse (cond : Expr) (yes no next : Body)

def Token.Reads (bound : Nat) (t : Token) (e : Expr) : Prop :=
  t.kind = .expression ∧ Expr.parse bound t.literal = .ok e

def Token.Names (t : Token) (index : Nat) : Prop :=
  t.kind = .keyword ∧ palette[index]? = some t.literal

inductive Simple.Derives (bound : Nat) : List Token → Simple → Prop
  | assign {v eq e : Token} {name : Text} {value : Expr} :
      v.Reads bound (.var name) → eq.is .assign = true → e.Reads bound value →
      Derives bound [v, eq, e] (.assign name value)
  | equation {e : Token} {name : Text} {value : Expr} :
      e.Reads bound (.binary .equal (.var name) value) → Derives bound [e] (.assign name value)
  | namedColor {set color link c : Token} {index : Nat} :
      set.is .set = true → color.is .color = true → link.is .towards = true → c.Names index →
      Derives bound [set, color, link, c] (.act .color (.literal (Int64.ofNat index)))
  | color {set color link e : Token} {value : Expr} :
      set.is .set = true → color.is .color = true → link.is .towards = true →
      e.Reads bound value → Derives bound [set, color, link, e] (.act .color value)
  | thickness {set thickness link e : Token} {value : Expr} :
      set.is .set = true → thickness.is .thickness = true → link.is .towards = true →
      e.Reads bound value → Derives bound [set, thickness, link, e] (.act .thickness value)
  | startStroke {start stroke : Token} :
      start.is .start = true → stroke.is .stroke = true →
      Derives bound [start, stroke] (.act .stroke (.literal 1))
  | stopStroke {stop stroke : Token} :
      stop.is .stop = true → stroke.is .stroke = true →
      Derives bound [stop, stroke] (.act .stroke (.literal 0))
  | move {move e : Token} {value : Expr} :
      move.is .move = true → e.Reads bound value → Derives bound [move, e] (.act .move value)
  | moveForward {move forward e : Token} {value : Expr} :
      move.is .move = true → forward.is .forward = true → e.Reads bound value →
      Derives bound [move, forward, e] (.act .move value)
  | moveBackward {move backward e : Token} {value : Expr} :
      move.is .move = true → backward.is .backward = true → e.Reads bound value →
      Derives bound [move, backward, e] (.act .move (.unary .negate value))
  | turnLeft {turn left : Token} :
      turn.is .turn = true → left.is .left = true →
      Derives bound [turn, left] (.act .turn (.literal 90))
  | turnRight {turn right : Token} :
      turn.is .turn = true → right.is .right = true →
      Derives bound [turn, right] (.act .turn (.literal (-90)))
  | turn {turn e : Token} {value : Expr} :
      turn.is .turn = true → e.Reads bound value → Derives bound [turn, e] (.act .turn value)
  | increment {increment v : Token} {name : Text} :
      increment.is .increment = true → v.Reads bound (.var name) →
      Derives bound [increment, v] (.increment name)
  | decrement {decrement v : Token} {name : Text} :
      decrement.is .decrement = true → v.Reads bound (.var name) →
      Derives bound [decrement, v] (.decrement name)

inductive Opening.Derives (bound : Nat) : List Token → Opening → Prop
  | ifThen {keyword e : Token} {cond : Expr} :
      keyword.is .ifThen = true → e.Reads bound cond → Derives bound [keyword, e] (.ifThen cond)
  | whileLoop {keyword e : Token} {cond : Expr} :
      keyword.is .whileLoop = true → e.Reads bound cond →
      Derives bound [keyword, e] (.loop false cond)
  | untilLoop {keyword e : Token} {cond : Expr} :
      keyword.is .untilLoop = true → e.Reads bound cond →
      Derives bound [keyword, e] (.loop true cond)
  | repeatLoop {keyword e times : Token} {count : Expr} :
      keyword.is .repeatLoop = true → e.Reads bound count → times.is .times = true →
      Derives bound [keyword, e, times] (.repeatLoop count)

inductive Body.Derives (bound : Nat) : List Token → Body → Prop
  | done : Derives bound [] .done
  | simple {tokens rest : List Token} {statement : Simple} {next : Body} :
      statement.Derives bound tokens → Derives bound rest next →
      Derives bound (tokens ++ rest) (.simple statement next)
  | block {tokens inside rest : List Token} {close : Token} {opening : Opening}
      {inner next : Body} :
      opening.Derives bound tokens → Derives bound inside inner → close.is .endBlock = true →
      Derives bound rest next →
      Derives bound (tokens ++ inside ++ close :: rest) (.block opening inner next)
  | ifElse {tokens first second rest : List Token} {middle close : Token} {cond : Expr}
      {yes no next : Body} :
      Opening.Derives bound tokens (.ifThen cond) → Derives bound first yes →
      middle.is .otherwise = true → Derives bound second no → close.is .endBlock = true →
      Derives bound rest next →
      Derives bound (tokens ++ first ++ middle :: second ++ close :: rest)
        (.ifElse cond yes no next)

def Simple.instruction : Simple → Instruction
  | assign name value => .assign name value
  | increment name => .assign name (.binary .add (.var name) (.literal 1))
  | decrement name => .assign name (.binary .sub (.var name) (.literal 1))
  | act action argument => .act action argument

namespace Opening

def test (negated : Bool) (cond : Expr) : Expr :=
  if negated then .unary .complement cond else cond

def counter (depth : Nat) : Text := counterName (depth + 1 : Nat)

def lead : Opening → Nat
  | ifThen _ => 1
  | loop _ _ => 1
  | repeatLoop _ => 2

def trail : Opening → Nat
  | ifThen _ => 0
  | loop _ _ => 1
  | repeatLoop _ => 3

def deepen (depth : Nat) : Opening → Nat
  | repeatLoop _ => depth + 1
  | _ => depth

/-- The code of a block at index `b` inside `depth` repeat blocks. -/
def wrap (b depth : Nat) (inner : List Instruction) : Opening → List Instruction
  | ifThen cond => .branch cond (b + 1 : Nat) (b + 1 + inner.length : Nat) :: inner
  | loop negated cond =>
    .branch (test negated cond) (b + 1 : Nat) (b + 2 + inner.length : Nat) ::
      (inner ++ [.jump b])
  | repeatLoop count =>
    .assign (counter depth) count ::
      .branch (.binary .greater (.var (counter depth)) (.literal 0)) (b + 2 : Nat)
        (b + 4 + inner.length : Nat) ::
      (inner ++ [.assign (counter depth) (.binary .sub (.var (counter depth)) (.literal 1)),
        .jump (b + 1 : Nat), .unset (counter depth)])

@[simp] theorem length_wrap (b depth : Nat) (inner : List Instruction) (opening : Opening) :
    (opening.wrap b depth inner).length = opening.lead + inner.length + opening.trail := by
  cases opening <;> simp [wrap, lead, trail] <;> omega

end Opening

namespace Body

def size : Body → Nat
  | done => 0
  | simple _ next => 1 + next.size
  | block opening inner next => opening.lead + inner.size + opening.trail + next.size
  | ifElse _ yes no next => 1 + yes.size + 1 + no.size + next.size

def code (b depth : Nat) : Body → List Instruction
  | done => []
  | simple statement next => statement.instruction :: next.code (b + 1) depth
  | block opening inner next =>
    opening.wrap b depth (inner.code (b + opening.lead) (opening.deepen depth)) ++
      next.code (b + (opening.lead + inner.size + opening.trail)) depth
  | ifElse cond yes no next =>
    .branch cond (b + 1 : Nat) (b + 1 + yes.size + 1 : Nat) :: (yes.code (b + 1) depth ++
      .jump (b + 1 + yes.size + 1 + no.size : Nat) :: (no.code (b + 1 + yes.size + 1) depth ++
        next.code (b + 1 + yes.size + 1 + no.size) depth))

@[simp] theorem length_code (b depth : Nat) (body : Body) :
    (body.code b depth).length = body.size := by
  induction body generalizing b depth with
  | done => rfl
  | simple statement next ih => simp [code, size, ih, Nat.add_comm]
  | block opening inner next ihi ihn => simp [code, size, ihi, ihn]
  | ifElse cond yes no next ihy ihn ihx => simp [code, size, ihy, ihn, ihx]; omega

end Body

end Tortoise
