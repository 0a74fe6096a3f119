import Tortoise.Compile.Error
import Tortoise.Expr.Parse

/-!
# Compiling token by token

Compilation is one pass over the tokens. A state says what the statement at hand expects next;
`Session.handle` takes one token and gives the state after it. Instructions are emitted as soon
as a statement is complete, and blocks are resolved at their end.
-/

namespace Tortoise

def palette : List Text := ["red", "green", "blue"]

def colorIndex? (name : Text) : Option Nat := palette.idxOf? name

/-- What is expected next, with what the statement has given so far. A state inside a block's
opening keeps the keyword that opened it. -/
inductive State where
  | idle
  | assignOperator (name : Text)
  | assignValue (name : Text)
  | set
  | setColorTo
  | setThicknessTo
  | color
  | thickness
  | start
  | stop
  | move
  | moveForward
  | moveBackward
  | turn
  | ifCondition (keyword : Token)
  | whileCondition (keyword : Token)
  | untilCondition (keyword : Token)
  | repeatCount (keyword : Token)
  | repeatTimes (keyword : Token) (count : Expr)
  | increment
  | decrement
deriving DecidableEq

def State.statement : State → String
  | idle => "idle"
  | assignOperator _ | assignValue _ => "assignment"
  | set => "set"
  | setColorTo | color => "set color"
  | setThicknessTo | thickness => "set thickness"
  | start => "start"
  | stop => "stop"
  | move => "move"
  | moveForward => "move forward"
  | moveBackward => "move backward"
  | turn => "turn"
  | ifCondition _ => "if"
  | whileCondition _ => "while"
  | untilCondition _ => "until"
  | repeatCount _ | repeatTimes _ _ => "repeat"
  | increment => "increment"
  | decrement => "decrement"

def State.begins? (t : Token) : Option State :=
  if t.is .set then some .set
  else if t.is .start then some .start
  else if t.is .stop then some .stop
  else if t.is .move then some .move
  else if t.is .turn then some .turn
  else if t.is .ifThen then some (.ifCondition t)
  else if t.is .whileLoop then some (.whileCondition t)
  else if t.is .untilLoop then some (.untilCondition t)
  else if t.is .repeatLoop then some (.repeatCount t)
  else if t.is .increment then some .increment
  else if t.is .decrement then some .decrement
  else none

structure Session where
  state : State := .idle
  code : Buffer := {}
  blocks : BlockStack := {}
  opened : List Token := []
deriving DecidableEq

namespace Session

abbrev Result := Except StatementError

def fail {α : Type} (t : Token) (cause : StatementCause) : Result α := .error ⟨cause, t.pos⟩

def expression (bound : Nat) (t : Token) : Result Expr :=
  if t.kind = .expression then
    match Expr.parse bound t.literal with
    | .ok e => .ok e
    | .error e => fail t (.unparseable e)
  else fail t (.expectedExpression t)

def goto (s : Session) (state : State) : Session := { s with state }

def emit (s : Session) (ins : Instruction) : Session :=
  { s with state := .idle, code := s.code.emit ins }

def enter (s : Session) (keyword : Token) (opening : Buffer × Block) : Session :=
  { state := .idle, code := opening.1, blocks := s.blocks.push opening.2,
    opened := keyword :: s.opened }

def emitAction (bound : Nat) (s : Session) (action : Action) (t : Token) : Result Session := do
  return s.emit (.act action (← expression bound t))

def emitStep (bound : Nat) (s : Session) (op : Infix) (t : Token) : Result Session := do
  match ← expression bound t with
  | .var name => return s.emit (.assign name (.binary op (.var name) (.literal 1)))
  | _ => fail t (.expectedVariable s.state.statement t)

/-- An expression at the start of a statement: the target of an assignment, or a whole
assignment written without blanks, which reads as a comparison. -/
def idleExpression (bound : Nat) (s : Session) (t : Token) : Result Session := do
  match ← expression bound t with
  | .var name => return s.goto (.assignOperator name)
  | .binary .equal (.var name) value => return s.emit (.assign name value)
  | _ => fail t (.expectedStatement t)

def elseBlock (s : Session) (t : Token) : Result Session :=
  match s.blocks.top? with
  | some (.ifThen branch elseJump) =>
    match s.code.elseArm branch elseJump with
    | ((code, .ok ()), elseJump) =>
      .ok { s with code, blocks := s.blocks.setTop (.ifThen branch elseJump) }
    | ((_, .error .duplicateElse), _) => fail t .duplicateElse
    | ((_, .error e), _) => fail t (.block e)
  | _ => fail t .elseOutside

def endBlock (s : Session) (t : Token) : Result Session :=
  match s.blocks.pop? with
  | none => fail t .endOutside
  | some (blk, blocks) =>
    match blk.close s.code with
    | (code, .ok ()) => .ok { s with code, blocks, opened := s.opened.tail }
    | (_, .error e) => fail t (.block e)

def idle (bound : Nat) (s : Session) (t : Token) : Result Session :=
  if t.kind = .expression then idleExpression bound s t
  else if t.is .otherwise then elseBlock s t
  else if t.is .endBlock then endBlock s t
  else match State.begins? t with
    | some state => .ok (s.goto state)
    | none => fail t (.unknownStatement t)

def handle (bound : Nat) (s : Session) (t : Token) : Result Session :=
  match s.state with
  | .idle => idle bound s t
  | .assignOperator name =>
    if t.is .assign then .ok (s.goto (.assignValue name)) else fail t (.expectedAssign name t)
  | .assignValue name => do return s.emit (.assign name (← expression bound t))
  | .set =>
    if t.is .color then .ok (s.goto .setColorTo)
    else if t.is .thickness then .ok (s.goto .setThicknessTo)
    else fail t (.expectedColorOrThickness t)
  | .setColorTo =>
    if t.is .towards then .ok (s.goto .color)
    else fail t (.expectedKeyword .towards s.state.statement t)
  | .setThicknessTo =>
    if t.is .towards then .ok (s.goto .thickness)
    else fail t (.expectedKeyword .towards s.state.statement t)
  | .color =>
    if t.kind = .keyword then
      match colorIndex? t.literal with
      | some i => .ok (s.emit (.act .color (.literal (Int64.ofNat i))))
      | none => fail t (.unknownColor t)
    else emitAction bound s .color t
  | .thickness => emitAction bound s .thickness t
  | .start =>
    if t.is .stroke then .ok (s.emit (.act .stroke (.literal 1)))
    else fail t (.expectedStroke s.state.statement t)
  | .stop =>
    if t.is .stroke then .ok (s.emit (.act .stroke (.literal 0)))
    else fail t (.expectedStroke s.state.statement t)
  | .move =>
    if t.is .forward then .ok (s.goto .moveForward)
    else if t.is .backward then .ok (s.goto .moveBackward)
    else emitAction bound s .move t
  | .moveForward => emitAction bound s .move t
  | .moveBackward => do
    return s.emit (.act .move (.unary .negate (← expression bound t)))
  | .turn =>
    if t.is .left then .ok (s.emit (.act .turn (.literal 90)))
    else if t.is .right then .ok (s.emit (.act .turn (.literal (-90))))
    else emitAction bound s .turn t
  | .ifCondition keyword => do return s.enter keyword (s.code.openIf (← expression bound t))
  | .whileCondition keyword => do
    return s.enter keyword (s.code.openWhile (← expression bound t))
  | .untilCondition keyword => do
    return s.enter keyword (s.code.openUntil (← expression bound t))
  | .repeatCount keyword => do return s.goto (.repeatTimes keyword (← expression bound t))
  | .repeatTimes keyword count =>
    if t.is .times then
      .ok (s.enter keyword (s.code.openRepeat count (s.blocks.repeats + 1)))
    else fail t (.expectedTimes t)
  | .increment => emitStep bound s .add t
  | .decrement => emitStep bound s .sub t

def finish (s : Session) (eof : Token) : Except CompileFailure Program :=
  if s.state ≠ .idle then
    .error (.statement ⟨.unexpectedEnd s.state.statement, eof.pos⟩)
  else match s.opened with
    | keyword :: _ => .error (.statement ⟨.neverClosed keyword.literal, keyword.pos⟩)
    | [] =>
      match s.code.program with
      | .ok p => .ok p
      | .error e => .error (.invalid e)

end Session

def compileFeed (bound : Nat) (feed : Feed) : Except CompileFailure Program :=
  let (tokens, last) := feed.tokens
  match tokens.foldlM (Session.handle bound) {} with
  | .error e => .error (.statement e)
  | .ok s =>
    match last with
    | .error e => .error (.scan e)
    | .ok eof => s.finish eof

end Tortoise
