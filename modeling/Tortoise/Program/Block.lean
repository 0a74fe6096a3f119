import Tortoise.Program.Buffer

/-!
# Open blocks

A block is a control structure whose end has not been reached. It remembers the instructions
with open places that it owns; closing it emits what its end needs and resolves them.

    if c … end             branch c b+1 e                         e: …
    if c … else … end      branch c b+1 f … jump e          f: …  e: …
    while c … end          branch c b+1 e … jump b                e: …
    until c … end          branch !c b+1 e … jump b               e: …
    repeat n times … end   assign k n, b: branch k>0 b+1 e …
                           assign k k-1, jump b, e: unset k

The counter `k` of a repeat block cannot be named by a program, and it depends on the number of
repeat blocks around it only.
-/

namespace Tortoise

inductive BlockKind where
  | ifThen
  | whileLoop
  | untilLoop
  | repeatLoop
deriving DecidableEq

def BlockKind.name : BlockKind → String
  | ifThen => "if"
  | whileLoop => "while"
  | untilLoop => "until"
  | repeatLoop => "repeat"

inductive Block where
  /-- The branch at the start and, after an else, the jump over the false arm. -/
  | ifThen (branch : Nat) (elseJump : Option Nat)
  /-- The branch at the start of a while loop, or of an until loop. -/
  | loop (negated : Bool) (branch : Nat)
  | repeatLoop (counter : Text) (branch : Nat)
deriving DecidableEq

inductive BlockError where
  | duplicateElse
  | patch (error : PatchError)
deriving DecidableEq

def BlockError.message : BlockError → Text
  | duplicateElse => "if block already has an else"
  | patch error => error.message

/-- The hidden counter of a repeat block with `depth` repeat blocks open, itself included. -/
def counterName (depth : Int) : Text := "#repeat" ++ Text.ofInt depth

/-- A buffer after a block operation, and whether it succeeded. What was emitted before a
failure stays. -/
abbrev Buffer.Outcome := Buffer × Except BlockError Unit

namespace Buffer

def afterPatch (b : Buffer) : Except PatchError Buffer → Outcome
  | .ok patched => (patched, .ok ())
  | .error e => (b, .error (.patch e))

def emitBranch (b : Buffer) (cond : Expr) : Buffer :=
  b.emit (.branch cond (b.size + 1) Instruction.unresolved)

def openIf (b : Buffer) (cond : Expr) : Buffer × Block :=
  (b.emitBranch cond, .ifThen b.size none)

def openWhile (b : Buffer) (cond : Expr) : Buffer × Block :=
  (b.emitBranch cond, .loop false b.size)

/-- An until loop runs while its condition is zero. -/
def openUntil (b : Buffer) (cond : Expr) : Buffer × Block :=
  (b.emitBranch (.unary .complement cond), .loop true b.size)

def openRepeat (b : Buffer) (count : Expr) (depth : Int) : Buffer × Block :=
  let counter := counterName depth
  let b := b.emit (.assign counter count)
  (b.emitBranch (.binary .greater (.var counter) (.literal 0)), .repeatLoop counter b.size)

/-- Ends the true arm of an if block: emits the jump over the false arm and leads the branch
just past it. -/
def elseArm (b : Buffer) (branch : Nat) (elseJump : Option Nat) : Outcome × Option Nat :=
  match elseJump with
  | some _ => ((b, .error .duplicateElse), elseJump)
  | none =>
    let jumped := b.emit (.jump Instruction.unresolved)
    (jumped.afterPatch (jumped.patchBranch branch jumped.size), some b.size)

end Buffer

namespace Block

def kind : Block → BlockKind
  | ifThen _ _ => .ifThen
  | loop negated _ => if negated then .untilLoop else .whileLoop
  | repeatLoop _ _ => .repeatLoop

def close (b : Buffer) : Block → Buffer.Outcome
  | ifThen branch none => b.afterPatch (b.patchBranch branch b.size)
  | ifThen _ (some elseJump) => b.afterPatch (b.patchJump elseJump b.size)
  | loop _ branch =>
    let b := b.emit (.jump branch)
    b.afterPatch (b.patchBranch branch b.size)
  | repeatLoop counter branch =>
    let b := b.emit (.assign counter (.binary .sub (.var counter) (.literal 1)))
    let b := b.emit (.jump branch)
    match b.patchBranch branch b.size with
    | .ok patched => (patched.emit (.unset counter), .ok ())
    | .error e => (b, .error (.patch e))

end Block

structure BlockStack where
  blocks : List Block := []
  repeats : Nat := 0
deriving DecidableEq

namespace BlockStack

def push (s : BlockStack) (blk : Block) : BlockStack :=
  ⟨blk :: s.blocks, if blk.kind = .repeatLoop then s.repeats + 1 else s.repeats⟩

def pop? (s : BlockStack) : Option (Block × BlockStack) :=
  match s.blocks with
  | [] => none
  | blk :: rest => some (blk, ⟨rest, if blk.kind = .repeatLoop then s.repeats - 1 else s.repeats⟩)

def top? (s : BlockStack) : Option Block := s.blocks.head?

def setTop (s : BlockStack) (blk : Block) : BlockStack := { s with blocks := blk :: s.blocks.tail }

def size (s : BlockStack) : Nat := s.blocks.length

end BlockStack

end Tortoise
