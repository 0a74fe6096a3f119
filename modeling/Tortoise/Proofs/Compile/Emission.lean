import Tortoise.Proofs.Compile.Transitions

/-!
# Derived tokens are compiled to the code of their tree

From an idle session the tokens of a body lead to the same session with the code of the body at
the end of its buffer, whatever blocks are open. Open places are resolved at the end of their
block; until then the buffer is the old one, the opening and the inner code.
-/

namespace Tortoise

namespace Buffer

def extend (b : Buffer) (more : List Instruction) : Buffer := ⟨b.code ++ more.toArray⟩

@[simp] theorem extend_nil (b : Buffer) : b.extend [] = b := by
  simp [extend]

@[simp] theorem size_extend (b : Buffer) (more : List Instruction) :
    (b.extend more).size = b.size + more.length := by
  simp [extend, size]

@[simp] theorem extend_extend (b : Buffer) (more rest : List Instruction) :
    (b.extend more).extend rest = b.extend (more ++ rest) := by
  simp [extend]

theorem emit_eq_extend (b : Buffer) (ins : Instruction) : b.emit ins = b.extend [ins] := by
  simp [extend, emit]

theorem getElem?_extend (b : Buffer) (before rest : List Instruction) (ins : Instruction) :
    (b.extend (before ++ ins :: rest)).code[b.size + before.length]? = some ins := by
  simp [extend, size]

theorem setIfInBounds_extend (b : Buffer) (before rest : List Instruction)
    (old new : Instruction) :
    (b.extend (before ++ old :: rest)).code.setIfInBounds (b.size + before.length) new =
      (b.extend (before ++ new :: rest)).code := by
  apply Array.toList_inj.1
  simp [extend, size, List.set_append_right]

/-- Leads the false place of a branch to the end of the buffer. -/
theorem patchBranch_extend (b : Buffer) (before rest : List Instruction) (cond : Expr)
    (onTrue : Int) (target : Nat) (htarget : target = b.size + before.length + 1 + rest.length) :
    (b.extend (before ++ .branch cond onTrue Instruction.unresolved :: rest)).patchBranch
        (b.size + before.length)
        (b.extend (before ++ .branch cond onTrue Instruction.unresolved :: rest)).size =
      .ok (b.extend (before ++ .branch cond onTrue target :: rest)) := by
  have hsize : (b.extend (before ++ .branch cond onTrue Instruction.unresolved :: rest)).size =
      target := by
    rw [htarget, size_extend, List.length_append, List.length_cons]
    omega
  unfold patchBranch
  rw [getElem?_extend, hsize]
  simp only [Instruction.branch, ne_eq, not_true_eq_false, if_false]
  rw [setIfInBounds_extend]

/-- Leads a jump to the end of the buffer. -/
theorem patchJump_extend (b : Buffer) (before rest : List Instruction) (target : Nat)
    (htarget : target = b.size + before.length + 1 + rest.length) :
    (b.extend (before ++ .jump Instruction.unresolved :: rest)).patchJump
        (b.size + before.length)
        (b.extend (before ++ .jump Instruction.unresolved :: rest)).size =
      .ok (b.extend (before ++ .jump target :: rest)) := by
  have hsize : (b.extend (before ++ .jump Instruction.unresolved :: rest)).size = target := by
    rw [htarget, size_extend, List.length_append, List.length_cons]
    omega
  unfold patchJump
  rw [getElem?_extend, hsize]
  simp only [Instruction.jump, ne_eq, not_true_eq_false, if_false]
  rw [setIfInBounds_extend]

end Buffer

namespace Opening

/-- The code before the inner code while its false place is open. -/
def front (b depth : Nat) : Opening → List Instruction
  | .ifThen cond => [.branch cond (b + 1 : Nat) Instruction.unresolved]
  | .loop negated cond => [.branch (test negated cond) (b + 1 : Nat) Instruction.unresolved]
  | .repeatLoop count =>
    [.assign (counter depth) count,
      .branch (.binary .greater (.var (counter depth)) (.literal 0)) (b + 2 : Nat)
        Instruction.unresolved]

@[simp] theorem length_front (b depth : Nat) (opening : Opening) :
    (opening.front b depth).length = opening.lead := by
  cases opening <;> rfl

def pending (b depth : Nat) : Opening → Block
  | .ifThen _ => .ifThen b none
  | .loop negated _ => .loop negated b
  | .repeatLoop _ => .repeatLoop (counter depth) (b + 1)

/-- The end of a block resolves what its opening left open. -/
theorem close_pending (b : Buffer) (depth : Nat) (opening : Opening) (inner : List Instruction) :
    (opening.pending b.size depth).close (b.extend (opening.front b.size depth ++ inner)) =
      (b.extend (opening.wrap b.size depth inner), .ok ()) := by
  cases opening with
  | ifThen cond =>
      have hpatch := b.patchBranch_extend [] inner cond (b.size + 1 : Nat)
        (b.size + 1 + inner.length) rfl
      exact congrArg (Buffer.afterPatch _) hpatch
  | loop negated cond =>
      have hpatch := b.patchBranch_extend [] (inner ++ [.jump b.size]) (test negated cond)
        (b.size + 1 : Nat) (b.size + 2 + inner.length) (by simp; omega)
      simp only [pending, front, Block.close, Buffer.emit_eq_extend, Buffer.extend_extend]
      exact congrArg (Buffer.afterPatch _) hpatch
  | repeatLoop count =>
      let k := counter depth
      have hpatch := b.patchBranch_extend [.assign k count]
        (inner ++ [.assign k (.binary .sub (.var k) (.literal 1)), .jump (b.size + 1 : Nat)])
        (.binary .greater (.var k) (.literal 0)) (b.size + 2 : Nat)
        (b.size + 4 + inner.length) (by simp; omega)
      simp only [pending, front, Block.close, Buffer.emit_eq_extend, Buffer.extend_extend,
        List.append_assoc, List.cons_append, List.nil_append]
      change Buffer.patchBranch _ (b.size + 1) _ = _ at hpatch
      simp only [List.cons_append, List.nil_append] at hpatch
      rw [hpatch]
      simp [wrap, k]

end Opening

namespace Session

def append (s : Session) (more : List Instruction) : Session :=
  { s with code := s.code.extend more }

@[simp] theorem append_nil (s : Session) : s.append [] = s := by
  simp [append]

@[simp] theorem append_append (s : Session) (more rest : List Instruction) :
    (s.append more).append rest = s.append (more ++ rest) := by
  simp [append]

@[simp] theorem opened_append (s : Session) (more : List Instruction) :
    (s.append more).opened = s.opened := rfl

theorem emit_eq_append {s : Session} (hs : s.state = .idle) (ins : Instruction) :
    s.emit ins = s.append [ins] := by
  rw [emit, append, Buffer.emit_eq_extend, ← hs]

def within (s : Session) (keyword : Token) (opening : Opening) : Session where
  state := .idle
  code := s.code.extend (opening.front s.code.size s.blocks.repeats)
  blocks := s.blocks.push (opening.pending s.code.size s.blocks.repeats)
  opened := keyword :: s.opened

def otherwise (s : Session) (keyword : Token) (cond : Expr) (yes : List Instruction) :
    Session where
  state := .idle
  code := s.code.extend (.branch cond (s.code.size + 1 : Nat)
    (s.code.size + 1 + yes.length + 1 : Nat) :: (yes ++ [.jump Instruction.unresolved]))
  blocks := s.blocks.push (.ifThen s.code.size (some (s.code.size + 1 + yes.length)))
  opened := keyword :: s.opened

section Blocks

variable (s : Session) (keyword : Token)

theorem enter_openIf (cond : Expr) :
    s.enter keyword (s.code.openIf cond) = s.within keyword (.ifThen cond) := by
  simp only [enter, within, Buffer.openIf, Buffer.emitBranch, Buffer.emit_eq_extend]
  rfl

theorem enter_openWhile (cond : Expr) :
    s.enter keyword (s.code.openWhile cond) = s.within keyword (.loop false cond) := by
  simp only [enter, within, Buffer.openWhile, Buffer.emitBranch, Buffer.emit_eq_extend]
  rfl

theorem enter_openUntil (cond : Expr) :
    s.enter keyword (s.code.openUntil cond) = s.within keyword (.loop true cond) := by
  simp only [enter, within, Buffer.openUntil, Buffer.emitBranch, Buffer.emit_eq_extend]
  rfl

theorem enter_openRepeat (count : Expr) :
    s.enter keyword (s.code.openRepeat count (s.blocks.repeats + 1)) =
      s.within keyword (.repeatLoop count) := by
  simp only [enter, within, Buffer.openRepeat, Buffer.emitBranch, Buffer.emit_eq_extend,
    Buffer.extend_extend, Buffer.size_extend]
  rfl

theorem size_within (opening : Opening) :
    (s.within keyword opening).code.size = s.code.size + opening.lead := by
  simp [within]

theorem repeats_within (opening : Opening) :
    (s.within keyword opening).blocks.repeats = opening.deepen s.blocks.repeats := by
  cases opening with
  | loop negated cond => cases negated <;> rfl
  | _ => rfl

theorem pop?_push (stack : BlockStack) (block : Block) :
    (stack.push block).pop? = some (block, stack) := by
  simp only [BlockStack.push, BlockStack.pop?]
  split <;> rfl

theorem endBlock_within {s : Session} (hs : s.state = .idle) (t : Token) (opening : Opening)
    (inner : List Instruction) :
    endBlock ((s.within keyword opening).append inner) t =
      .ok (s.append (opening.wrap s.code.size s.blocks.repeats inner)) := by
  simp only [endBlock, within, append, pop?_push, Buffer.extend_extend, Opening.close_pending,
    List.tail_cons]
  rw [← hs]

theorem elseBlock_within (t : Token) (cond : Expr) (yes : List Instruction) :
    elseBlock ((s.within keyword (.ifThen cond)).append yes) t =
      .ok (s.otherwise keyword cond yes) := by
  have hpatch := s.code.patchBranch_extend [] (yes ++ [.jump Instruction.unresolved]) cond
    (s.code.size + 1 : Nat) (s.code.size + 1 + yes.length + 1) (by simp; omega)
  simp only [elseBlock, within, append, BlockStack.top?, BlockStack.push, Opening.pending,
    List.head?_cons, Buffer.elseArm, Buffer.emit_eq_extend, Buffer.extend_extend, Opening.front,
    List.cons_append, List.nil_append]
  change Buffer.patchBranch _ s.code.size _ = _ at hpatch
  simp only [List.nil_append] at hpatch
  rw [hpatch]
  simp only [Buffer.afterPatch, Buffer.size_extend, List.length_cons]
  have hjump : s.code.size + (yes.length + 1) = s.code.size + 1 + yes.length := by omega
  rw [hjump]
  rfl

theorem size_otherwise (cond : Expr) (yes : List Instruction) :
    (s.otherwise keyword cond yes).code.size = s.code.size + 1 + yes.length + 1 := by
  simp only [otherwise, Buffer.size_extend, List.length_cons, List.length_append, List.length_nil]
  omega

theorem repeats_otherwise (cond : Expr) (yes : List Instruction) :
    (s.otherwise keyword cond yes).blocks.repeats = s.blocks.repeats := rfl

theorem elseBlock_otherwise (t : Token) (cond : Expr) (yes no : List Instruction) :
    elseBlock ((s.otherwise keyword cond yes).append no) t = fail t .duplicateElse := rfl

theorem endBlock_otherwise {s : Session} (hs : s.state = .idle) (t : Token) (cond : Expr)
    (yes no : List Instruction) :
    endBlock ((s.otherwise keyword cond yes).append no) t =
      .ok (s.append (.branch cond (s.code.size + 1 : Nat)
        (s.code.size + 1 + yes.length + 1 : Nat) :: (yes ++
          .jump (s.code.size + 1 + yes.length + 1 + no.length : Nat) :: no))) := by
  have hpatch := s.code.patchJump_extend (.branch cond (s.code.size + 1 : Nat)
    (s.code.size + 1 + yes.length + 1 : Nat) :: yes) no
    (s.code.size + 1 + yes.length + 1 + no.length) (by simp; omega)
  have hindex : s.code.size + 1 + yes.length =
      s.code.size + (Instruction.branch cond (s.code.size + 1 : Nat)
        (s.code.size + 1 + yes.length + 1 : Nat) :: yes).length := by
    simp only [List.length_cons]
    omega
  simp only [endBlock, otherwise, append, pop?_push, Buffer.extend_extend, Block.close,
    List.cons_append, List.append_assoc, List.nil_append, List.tail_cons]
  simp only [List.cons_append, ← hindex] at hpatch
  rw [hpatch, ← hs]
  rfl

end Blocks

end Session

section Statements

open Session

variable {bound : Nat} {s : Session} {tokens : List Token}

theorem Simple.Derives.leads {statement : Simple} (h : statement.Derives bound tokens)
    (hs : s.state = .idle) : Leads bound s tokens (s.append [statement.instruction]) := by
  rw [← emit_eq_append hs]
  cases h with
  | assign hv heq he =>
      exact .cons ((handle_idle_iff hs).2 (.inl ⟨_, hv, rfl⟩))
        (.cons (handle_assignOperator_iff.2 ⟨heq, rfl⟩)
          (.last (handle_assignValue_iff.2 ⟨_, he, rfl⟩)))
  | equation he => exact .last ((handle_idle_iff hs).2 (.inr (.inl ⟨_, _, he, rfl⟩)))
  | namedColor hset hcolor hto hc =>
      exact .cons (handle_start hs hset rfl)
        (.cons (handle_set_iff.2 (.inl ⟨hcolor, rfl⟩))
          (.cons (handle_setColorTo_iff.2 ⟨hto, rfl⟩)
            (.last (handle_color_iff.2 (.inl ⟨_, hc, rfl⟩)))))
  | color hset hcolor hto he =>
      exact .cons (handle_start hs hset rfl)
        (.cons (handle_set_iff.2 (.inl ⟨hcolor, rfl⟩))
          (.cons (handle_setColorTo_iff.2 ⟨hto, rfl⟩)
            (.last (handle_color_iff.2 (.inr ⟨_, he, rfl⟩)))))
  | thickness hset hthickness hto he =>
      exact .cons (handle_start hs hset rfl)
        (.cons (handle_set_iff.2 (.inr ⟨hthickness, rfl⟩))
          (.cons (handle_setThicknessTo_iff.2 ⟨hto, rfl⟩)
            (.last (handle_thickness_iff.2 ⟨_, he, rfl⟩))))
  | startStroke hstart hstroke =>
      exact .cons (handle_start hs hstart rfl) (.last (handle_start_iff.2 ⟨hstroke, rfl⟩))
  | stopStroke hstop hstroke =>
      exact .cons (handle_start hs hstop rfl) (.last (handle_stop_iff.2 ⟨hstroke, rfl⟩))
  | move hmove he =>
      exact .cons (handle_start hs hmove rfl) (.last (handle_move_iff.2 (.inr (.inr ⟨_, he, rfl⟩))))
  | moveForward hmove hforward he =>
      exact .cons (handle_start hs hmove rfl)
        (.cons (handle_move_iff.2 (.inl ⟨hforward, rfl⟩))
          (.last (handle_moveForward_iff.2 ⟨_, he, rfl⟩)))
  | moveBackward hmove hbackward he =>
      exact .cons (handle_start hs hmove rfl)
        (.cons (handle_move_iff.2 (.inr (.inl ⟨hbackward, rfl⟩)))
          (.last (handle_moveBackward_iff.2 ⟨_, he, rfl⟩)))
  | turnLeft hturn hleft =>
      exact .cons (handle_start hs hturn rfl) (.last (handle_turn_iff.2 (.inl ⟨hleft, rfl⟩)))
  | turnRight hturn hright =>
      exact .cons (handle_start hs hturn rfl)
        (.last (handle_turn_iff.2 (.inr (.inl ⟨hright, rfl⟩))))
  | turn hturn he =>
      exact .cons (handle_start hs hturn rfl) (.last (handle_turn_iff.2 (.inr (.inr ⟨_, he, rfl⟩))))
  | increment hkeyword hv =>
      exact .cons (handle_start hs hkeyword rfl) (.last (handle_increment_iff.2 ⟨_, hv, rfl⟩))
  | decrement hkeyword hv =>
      exact .cons (handle_start hs hkeyword rfl) (.last (handle_decrement_iff.2 ⟨_, hv, rfl⟩))

theorem Opening.Derives.leads {opening : Opening} (h : opening.Derives bound tokens)
    (hs : s.state = .idle) :
    ∃ keyword rest, tokens = keyword :: rest ∧ Leads bound s tokens (s.within keyword opening) := by
  cases h with
  | @ifThen keyword e cond hkeyword he =>
      refine ⟨keyword, _, rfl, .cons (handle_start hs hkeyword rfl) (.last ?_)⟩
      exact handle_ifCondition_iff.2 ⟨cond, he, (s.enter_openIf keyword cond).symm⟩
  | @whileLoop keyword e cond hkeyword he =>
      refine ⟨keyword, _, rfl, .cons (handle_start hs hkeyword rfl) (.last ?_)⟩
      exact handle_whileCondition_iff.2 ⟨cond, he, (s.enter_openWhile keyword cond).symm⟩
  | @untilLoop keyword e cond hkeyword he =>
      refine ⟨keyword, _, rfl, .cons (handle_start hs hkeyword rfl) (.last ?_)⟩
      exact handle_untilCondition_iff.2 ⟨cond, he, (s.enter_openUntil keyword cond).symm⟩
  | @repeatLoop keyword e times count hkeyword he htimes =>
      have hcount : handle bound (s.goto (.repeatCount keyword)) e =
          .ok (s.goto (.repeatTimes keyword count)) :=
        handle_repeatCount_iff.2 ⟨count, he, rfl⟩
      refine ⟨keyword, _, rfl, .cons (handle_start hs hkeyword rfl) (.cons hcount (.last ?_))⟩
      exact handle_repeatTimes_iff.2 ⟨htimes, (s.enter_openRepeat keyword count).symm⟩

/-- What follows goes on behind the code so far. -/
theorem leads_append_code {next : Body} {more code : List Instruction} (hs : s.state = .idle)
    (hnext : ∀ {s : Session}, s.state = .idle →
      Leads bound s tokens (s.append (next.code s.code.size s.blocks.repeats)))
    (hcode : code = more ++ next.code (s.code.size + more.length) s.blocks.repeats) :
    Leads bound (s.append more) tokens (s.append code) := by
  have h := hnext (s := s.append more) hs
  rw [append_append, Session.append, Buffer.size_extend] at h
  rw [hcode]
  exact h

theorem Body.Derives.leads {body : Body} (h : body.Derives bound tokens)
    (hs : s.state = .idle) :
    Leads bound s tokens (s.append (body.code s.code.size s.blocks.repeats)) := by
  induction h generalizing s with
  | done => exact leads_nil_iff.2 s.append_nil
  | @simple tokens rest statement next hstatement _ ih =>
      exact (hstatement.leads hs).append (leads_append_code hs ih rfl)
  | @block tokens inside rest close opening inner next hopening _ hclose _ ihi ihn =>
      obtain ⟨keyword, -, -, hlead⟩ := hopening.leads hs
      have hinner := ihi (s := s.within keyword opening) rfl
      rw [size_within, repeats_within] at hinner
      have hend := (handle_end bound rfl hclose).trans
        (endBlock_within keyword hs close opening
          (inner.code (s.code.size + opening.lead) (opening.deepen s.blocks.repeats)))
      refine (hlead.append hinner).append (.cons hend (leads_append_code hs ihn ?_))
      rw [Opening.length_wrap, Body.length_code]
      rfl
  | @ifElse tokens first second rest middle close cond yes no next hopening _ hmiddle _ hclose _
      ihy ihn ihx =>
      obtain ⟨keyword, -, -, hlead⟩ := hopening.leads hs
      have hyes := ihy (s := s.within keyword (.ifThen cond)) rfl
      rw [size_within, repeats_within] at hyes
      let first := yes.code (s.code.size + 1) s.blocks.repeats
      have helse := (handle_else bound rfl hmiddle).trans
        (s.elseBlock_within keyword middle cond first)
      have hno := ihn (s := s.otherwise keyword cond first) rfl
      rw [size_otherwise, repeats_otherwise, Body.length_code] at hno
      have hend := (handle_end bound rfl hclose).trans
        (endBlock_otherwise keyword hs close cond first
          (no.code (s.code.size + 1 + yes.size + 1) s.blocks.repeats))
      refine ((hlead.append hyes).append (.cons helse hno)).append
        (.cons hend (leads_append_code hs ihx ?_))
      simp only [List.length_cons, List.length_append, Body.length_code, first, Body.code,
        List.cons_append, List.append_assoc]
      have hplace : s.code.size + (yes.size + (no.size + 1) + 1) =
          s.code.size + 1 + yes.size + 1 + no.size := by omega
      rw [hplace]

end Statements

end Tortoise
