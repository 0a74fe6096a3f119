import Tortoise.Proofs.Compile.Program

/-!
# Code in place

Instructions that stand in a program from some index on. What is proved of the code of a body at
every offset is proved piece by piece, along the construction of the code.
-/

namespace Tortoise

def Placed (P : Nat → Instruction → Prop) (b : Nat) (code : List Instruction) : Prop :=
  ∀ i ins, code[i]? = some ins → P (b + i) ins

variable {P : Nat → Instruction → Prop} {b : Nat} {ins : Instruction}
  {code rest : List Instruction}

theorem placed_nil (P : Nat → Instruction → Prop) (b : Nat) : Placed P b [] := by
  intro i ins hi
  simp at hi

theorem placed_cons : Placed P b (ins :: code) ↔ P b ins ∧ Placed P (b + 1) code := by
  constructor
  · intro h
    refine ⟨h 0 ins rfl, fun i ins' hi => ?_⟩
    rw [Nat.add_assoc, Nat.add_comm 1]
    exact h (i + 1) ins' hi
  · rintro ⟨hhead, htail⟩ i ins' hi
    cases i with
    | zero =>
        obtain rfl := Option.some.inj hi
        exact hhead
    | succ i =>
        rw [Nat.add_comm i, ← Nat.add_assoc]
        exact htail i ins' hi

theorem placed_append :
    Placed P b (code ++ rest) ↔ Placed P b code ∧ Placed P (b + code.length) rest := by
  induction code generalizing b with
  | nil => simp [Placed]
  | cons ins code ih =>
      rw [List.cons_append, placed_cons, placed_cons, ih, and_assoc, List.length_cons,
        Nat.add_assoc, Nat.add_comm 1]

theorem Placed.mono {Q : Nat → Instruction → Prop} (h : Placed P b code)
    (hPQ : ∀ i ins, b ≤ i → i < b + code.length → P i ins → Q i ins) : Placed Q b code := by
  intro i ins hi
  obtain ⟨hlt, _⟩ := List.getElem?_eq_some_iff.1 hi
  exact hPQ (b + i) ins (by omega) (by omega) (h i ins hi)

theorem Placed.of_wrap {depth : Nat} {opening : Opening}
    (h : Placed P b (opening.wrap b depth code)) : Placed P (b + opening.lead) code := by
  cases opening with
  | ifThen cond => exact (placed_cons.1 h).2
  | loop negated cond => exact (placed_append.1 (placed_cons.1 h).2).1
  | repeatLoop count => exact (placed_append.1 (placed_cons.1 (placed_cons.1 h).2).2).1

theorem Body.getElem?_program (body : Body) (i : Nat) :
    body.program[i]? = (body.code 0 0)[i]? := by
  simp [program]

/-- A property of the placed code of a body holds all over its program. -/
theorem Placed.program {body : Body} (h : Placed P 0 (body.code 0 0)) {i : Nat}
    (hi : body.program[i]? = some ins) : P i ins := by
  rw [body.getElem?_program] at hi
  simpa using h i ins hi

def CodeAt (program : Program) : Nat → List Instruction → Prop :=
  Placed fun i ins => program[i]? = some ins

theorem codeAt_program (body : Body) : CodeAt body.program 0 (body.code 0 0) := by
  intro i ins hi
  rw [Nat.zero_add, body.getElem?_program]
  exact hi

end Tortoise
