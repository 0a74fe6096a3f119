import Tortoise.Program.Instruction

/-!
# Programs

A program is a sequence of instructions. It halts when control reaches its end. A program is
valid if every instruction has what its command needs and every place it names lies in the
program or at its end.
-/

namespace Tortoise

abbrev Program := Array Instruction

structure InvalidProgram where
  index : Nat
  flaw : Instruction.Flaw
deriving DecidableEq

def InvalidProgram.message (e : InvalidProgram) : String :=
  s!"instruction {e.index}: " ++ e.flaw.message

namespace Program

def invalid? (p : Program) : Option InvalidProgram :=
  p.toList.zipIdx.findSome? fun (ins, index) => (ins.flaw? p.size).map (⟨index, ·⟩)

def isValid (p : Program) : Bool := p.invalid?.isNone

def listingLine (width index : Nat) (text : Text) : Text :=
  (Text.padLeft width (Text.ofNat index) ++ "  " : String) ++ text ++ "\n"

/-- The numbered listing, one instruction a line, with the halt at the end. -/
def listing (p : Program) : Text :=
  let width := (Text.ofNat p.size).length
  (p.toList.zipIdx.flatMap fun (ins, index) => listingLine width index ins.render)
    ++ listingLine width p.size "halt"

end Program

end Tortoise
