import Tortoise.Program.Basic

/-!
# Code under construction

Instructions are only ever appended to a buffer. Afterwards a jump or a branch whose place is
still open can be resolved, once; a patch that fails leaves the buffer as it was.
-/

namespace Tortoise

structure Buffer where
  code : Program := #[]
deriving DecidableEq

inductive PatchError where
  | notAJump (index : Nat) (found : Command)
  | notABranch (index : Nat) (found : Command)
  | jumpResolved (index : Nat) (target : Int)
  | branchResolved (index : Nat) (target : Int)
  | noInstruction (index : Nat)
deriving DecidableEq

def PatchError.message : PatchError → Text
  | notAJump index found => s!"instruction {index} is " ++ found.spelling ++ ", not Jump"
  | notABranch index found => s!"instruction {index} is " ++ found.spelling ++ ", not Branch"
  | jumpResolved index target => s!"jump {index} already resolved to {target}"
  | branchResolved index target => s!"branch {index} already resolved to {target}"
  | noInstruction index => s!"no instruction {index}"

namespace Buffer

def size (b : Buffer) : Nat := b.code.size

def emit (b : Buffer) (ins : Instruction) : Buffer := ⟨b.code.push ins⟩

def patchJump (b : Buffer) (index : Nat) (target : Int) : Except PatchError Buffer :=
  match b.code[index]? with
  | none => .error (.noInstruction index)
  | some ins =>
    if ins.command ≠ .jump then .error (.notAJump index ins.command)
    else if ins.target ≠ Instruction.unresolved then .error (.jumpResolved index ins.target)
    else .ok ⟨b.code.setIfInBounds index { ins with target }⟩

def patchBranch (b : Buffer) (index : Nat) (target : Int) : Except PatchError Buffer :=
  match b.code[index]? with
  | none => .error (.noInstruction index)
  | some ins =>
    if ins.command ≠ .branch then .error (.notABranch index ins.command)
    else if ins.onFalse ≠ Instruction.unresolved then .error (.branchResolved index ins.onFalse)
    else .ok ⟨b.code.setIfInBounds index { ins with onFalse := target }⟩

def program (b : Buffer) : Except InvalidProgram Program :=
  match b.code.invalid? with
  | some e => .error e
  | none => .ok b.code

end Buffer

end Tortoise
