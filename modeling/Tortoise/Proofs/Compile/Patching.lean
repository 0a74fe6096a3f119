import Tortoise.Proofs.Compile.FirstError
import Tortoise.Proofs.Program.Ownership

/-!
# Compilation never fails to patch

A session builds its code by block operations only, so each of its open places has an owner among
its open blocks. No patch fails then, and a program whose blocks are all closed is valid: errors of
these kinds do not come out of compilation.
-/

namespace Tortoise

open Session

def State.Complete : State → Prop
  | assignOperator name | assignValue name => name.isEmpty = false
  | repeatTimes _ count => count.isAbsent = false
  | _ => True

namespace Session

variable {bound : Nat} {s s' : Session} {t : Token}

def assembly (s : Session) : Assembly := ⟨s.code, s.blocks⟩

theorem elseBlock_eq (s : Session) (t : Token) :
    elseBlock s t = match s.assembly.apply .otherwise with
      | some (a, .ok ()) => .ok { s with code := a.code, blocks := a.blocks }
      | some (_, .error .duplicateElse) => fail t .duplicateElse
      | some (_, .error e) => fail t (.block e)
      | none => fail t .elseOutside := by
  simp only [elseBlock, Assembly.apply, assembly]
  cases htop : s.blocks.top? with
  | none => rfl
  | some blk =>
      cases blk with
      | ifThen branch elseJump =>
          simp only
          rcases s.code.elseArm branch elseJump with ⟨⟨code, _ | _⟩, elseJump'⟩
          · rename_i e
            cases e <;> rfl
          · rfl
      | loop negated branch => rfl
      | repeatLoop counter branch => rfl

theorem endBlock_eq (s : Session) (t : Token) :
    endBlock s t = match s.assembly.apply .close with
      | some (a, .ok ()) =>
        .ok { s with code := a.code, blocks := a.blocks, opened := s.opened.tail }
      | some (_, .error e) => fail t (.block e)
      | none => fail t .endOutside := by
  simp only [endBlock, Assembly.apply, assembly]
  cases hpop : s.blocks.pop? with
  | none => rfl
  | some popped =>
      obtain ⟨blk, blocks⟩ := popped
      simp only
      rcases blk.close s.code with ⟨code, _ | _⟩ <;> rfl

/-- An else keeps the number of open blocks. -/
theorem length_of_otherwise {a a' : Assembly} {outcome : Except BlockError Unit}
    (h : a.apply .otherwise = some (a', outcome)) :
    a'.blocks.blocks.length = a.blocks.blocks.length := by
  simp only [Assembly.apply] at h
  split at h
  next branch elseJump htop =>
    obtain ⟨rest, hblocks⟩ := List.head?_eq_some_iff.1 htop
    obtain ⟨rfl, -⟩ := Prod.mk.inj (Option.some.inj h)
    simp [BlockStack.setTop, hblocks]
  next => cases h

/-- An end closes one block. -/
theorem length_of_close {a a' : Assembly} {outcome : Except BlockError Unit}
    (h : a.apply .close = some (a', outcome)) :
    a'.blocks.blocks.length + 1 = a.blocks.blocks.length := by
  simp only [Assembly.apply] at h
  split at h
  next blk blocks hpop =>
    obtain ⟨rfl, -⟩ := Prod.mk.inj (Option.some.inj h)
    rw [(BlockStack.pop?_eq_some_iff.1 hpop).1, List.length_cons]
  next => cases h

/-- A session that is the result of block operations, with one keyword for each open block. -/
structure Built (s : Session) : Prop where
  operations : ∃ ops : List BlockOperation, (∀ op ∈ ops, op.Valid) ∧
    ({} : Assembly).run ops = some s.assembly
  opened : s.opened.length = s.blocks.blocks.length
  complete : s.state.Complete

namespace Built

theorem start : Built {} := ⟨⟨[], nofun, rfl⟩, rfl, trivial⟩

theorem sound (h : s.Built) : s.assembly.Sound := by
  obtain ⟨ops, hops, hrun⟩ := h.operations
  exact Assembly.sound_empty.run hops hrun

theorem goto (h : s.Built) {state : State} (hstate : state.Complete) : (s.goto state).Built :=
  ⟨h.operations, h.opened, hstate⟩

/-- A session goes on with a block operation. -/
theorem perform (h : s.Built) {op : BlockOperation} (hop : op.Valid)
    (happly : s.assembly.apply op = some (s'.assembly, .ok ()))
    (hopened : s'.opened.length = s'.blocks.blocks.length) (hstate : s'.state.Complete) :
    s'.Built := by
  obtain ⟨ops, hops, hrun⟩ := h.operations
  refine ⟨⟨ops ++ [op], ?_, ?_⟩, hopened, hstate⟩
  · simpa [or_imp, forall_and] using ⟨hops, hop⟩
  · simp only [Assembly.run] at hrun
    simp [Assembly.run, hrun, happly]

theorem emit (h : s.Built) {ins : Instruction} (hins : BlockOperation.Valid (.emit ins)) :
    (s.emit ins).Built :=
  h.perform hins rfl h.opened trivial

theorem assign (h : s.Built) {name : Text} {e : Expr} (hname : name.isEmpty = false)
    (he : e.isAbsent = false) : (s.emit (.assign name e)).Built :=
  h.emit ⟨nofun, nofun, Instruction.flaw?_assign hname he⟩

theorem act (h : s.Built) (action : Action) {e : Expr} (he : e.isAbsent = false) :
    (s.emit (.act action e)).Built :=
  h.emit ⟨nofun, nofun, Instruction.flaw?_act he⟩

/-- A block may be opened with an operation that does so. -/
theorem enter (h : s.Built) (op : BlockOperation) (hop : op.Valid) (keyword : Token)
    {opening : Buffer × Block}
    (happly : s.assembly.apply op = some (s.assembly.enter opening, .ok ())) :
    (s.enter keyword opening).Built :=
  h.perform hop happly (congrArg (· + 1) h.opened) trivial

theorem after_elseBlock (h : s.Built) (hok : elseBlock s t = .ok s') :
    s'.Built := by
  rw [elseBlock_eq] at hok
  split at hok
  next a happly =>
    obtain rfl := Except.ok.inj hok
    refine h.perform BlockOperation.valid_otherwise happly ?_ h.complete
    exact h.opened.trans (length_of_otherwise happly).symm
  all_goals cases hok

theorem after_endBlock (h : s.Built) (hok : endBlock s t = .ok s') :
    s'.Built := by
  rw [endBlock_eq] at hok
  split at hok
  next a happly =>
    obtain rfl := Except.ok.inj hok
    refine h.perform BlockOperation.valid_close happly ?_ h.complete
    have hclosed := length_of_close happly
    have hopened := h.opened
    simp only [List.length_tail, assembly] at hclosed ⊢
    omega
  all_goals cases hok

theorem handle_idle (h : s.Built) (hs : s.state = .idle) (hok : handle bound s t = .ok s') :
    s'.Built := by
  rcases (handle_idle_iff hs).1 hok with ⟨name, hname, rfl⟩ | ⟨name, value, hvalue, rfl⟩ |
    ⟨-, helse⟩ | ⟨-, hend⟩ | ⟨k, state, -, hstate, rfl⟩
  · exact h.goto (Text.ne_nil_of_isIdentifier hname.plain)
  · obtain ⟨-, hname, hvalue⟩ := hvalue.plain
    exact h.assign (Text.ne_nil_of_isIdentifier hname) hvalue.isAbsent_eq_false
  · exact h.after_elseBlock helse
  · exact h.after_endBlock hend
  · refine h.goto ?_
    cases k <;> simp only [State.starting, Option.some.injEq, reduceCtorEq] at hstate <;>
      (subst hstate; trivial)

theorem handle_goto (h : s.Built) {state : State} (hstate : state.Complete)
    (hok : handle bound (s.goto state) t = .ok s') : s'.Built := by
  cases state with
  | idle => exact (h.goto hstate).handle_idle rfl hok
  | assignOperator name =>
      obtain ⟨-, rfl⟩ := handle_assignOperator_iff.1 hok
      exact h.goto hstate
  | assignValue name =>
      obtain ⟨e, he, rfl⟩ := handle_assignValue_iff.1 hok
      exact h.assign hstate he.plain.isAbsent_eq_false
  | set =>
      obtain ⟨-, rfl⟩ | ⟨-, rfl⟩ := handle_set_iff.1 hok
      · exact h.goto trivial
      · exact h.goto trivial
  | setColorTo =>
      obtain ⟨-, rfl⟩ := handle_setColorTo_iff.1 hok
      exact h.goto trivial
  | setThicknessTo =>
      obtain ⟨-, rfl⟩ := handle_setThicknessTo_iff.1 hok
      exact h.goto trivial
  | color =>
      obtain ⟨index, -, rfl⟩ | ⟨e, he, rfl⟩ := handle_color_iff.1 hok
      · exact h.act .color rfl
      · exact h.act .color he.plain.isAbsent_eq_false
  | thickness =>
      obtain ⟨e, he, rfl⟩ := handle_thickness_iff.1 hok
      exact h.act .thickness he.plain.isAbsent_eq_false
  | start =>
      obtain ⟨-, rfl⟩ := handle_start_iff.1 hok
      exact h.act .stroke rfl
  | stop =>
      obtain ⟨-, rfl⟩ := handle_stop_iff.1 hok
      exact h.act .stroke rfl
  | move =>
      obtain ⟨-, rfl⟩ | ⟨-, rfl⟩ | ⟨e, he, rfl⟩ := handle_move_iff.1 hok
      · exact h.goto trivial
      · exact h.goto trivial
      · exact h.act .move he.plain.isAbsent_eq_false
  | moveForward =>
      obtain ⟨e, he, rfl⟩ := handle_moveForward_iff.1 hok
      exact h.act .move he.plain.isAbsent_eq_false
  | moveBackward =>
      obtain ⟨e, -, rfl⟩ := handle_moveBackward_iff.1 hok
      exact h.act .move rfl
  | turn =>
      obtain ⟨-, rfl⟩ | ⟨-, rfl⟩ | ⟨e, he, rfl⟩ := handle_turn_iff.1 hok
      · exact h.act .turn rfl
      · exact h.act .turn rfl
      · exact h.act .turn he.plain.isAbsent_eq_false
  | ifCondition keyword =>
      obtain ⟨e, he, rfl⟩ := handle_ifCondition_iff.1 hok
      exact h.enter (.openIf e) he.plain.isAbsent_eq_false keyword rfl
  | whileCondition keyword =>
      obtain ⟨e, he, rfl⟩ := handle_whileCondition_iff.1 hok
      exact h.enter (.openWhile e) he.plain.isAbsent_eq_false keyword rfl
  | untilCondition keyword =>
      obtain ⟨e, he, rfl⟩ := handle_untilCondition_iff.1 hok
      exact h.enter (.openUntil e) trivial keyword rfl
  | repeatCount keyword =>
      obtain ⟨e, he, rfl⟩ := handle_repeatCount_iff.1 hok
      exact h.goto he.plain.isAbsent_eq_false
  | repeatTimes keyword count =>
      obtain ⟨-, rfl⟩ := handle_repeatTimes_iff.1 hok
      exact h.enter (.openRepeat count) hstate keyword rfl
  | increment =>
      obtain ⟨name, hname, rfl⟩ := handle_increment_iff.1 hok
      exact h.assign (Text.ne_nil_of_isIdentifier hname.plain) rfl
  | decrement =>
      obtain ⟨name, hname, rfl⟩ := handle_decrement_iff.1 hok
      exact h.assign (Text.ne_nil_of_isIdentifier hname.plain) rfl

theorem handle (h : s.Built) (hok : handle bound s t = .ok s') : s'.Built :=
  h.handle_goto h.complete hok

theorem leads {tokens : List Token} (h : s.Built) (hleads : Leads bound s tokens s') :
    s'.Built := by
  induction tokens generalizing s with
  | nil => exact leads_nil_iff.1 hleads ▸ h
  | cons t tokens ih =>
      obtain ⟨mid, hmid, hrest⟩ := leads_cons_iff.1 hleads
      exact ih (h.handle hmid) hrest

end Built

def NotOfBlock (e : StatementError) : Prop := ∀ err, e.cause ≠ .block err

theorem Built.elseBlock_fails (h : s.Built) : Fails NotOfBlock (elseBlock s t) := by
  rw [elseBlock_eq]
  split
  next => exact .ok _
  next => exact .fail nofun
  next e hne happly =>
    obtain ⟨rfl, -⟩ := (h.sound.apply_error_iff BlockOperation.valid_otherwise).1 happly
    exact absurd rfl hne
  next => exact .fail nofun

theorem Built.endBlock_fails (h : s.Built) : Fails NotOfBlock (endBlock s t) := by
  rw [endBlock_eq]
  split
  next => exact .ok _
  next e happly =>
    obtain ⟨-, hop, -⟩ := (h.sound.apply_error_iff BlockOperation.valid_close).1 happly
    cases hop
  next => exact .fail nofun

theorem Built.handle_fails (h : s.Built) : Fails NotOfBlock (Session.handle bound s t) :=
  Tortoise.handle_fails (fun _ hcause => hcause) h.elseBlock_fails h.endBlock_fails

/-- The program of a session with all blocks closed is valid. -/
theorem Built.finish_ne_invalid {eof : Token} (h : s.Built) (e : InvalidProgram) :
    s.finish eof ≠ .error (.invalid e) := by
  intro hfinish
  unfold finish at hfinish
  split at hfinish
  next => cases hfinish
  next =>
    split at hfinish
    next => cases hfinish
    next hopened =>
      have hempty : s.blocks.blocks = [] := by
        rw [← List.length_eq_zero_iff, ← h.opened, hopened, List.length_nil]
      obtain ⟨p, hp⟩ := h.sound.program_iff.2 hempty
      rw [show s.code.program = .ok p from hp] at hfinish
      cases hfinish

end Session

def CompileFailure.NotInternal : CompileFailure → Prop
  | scan _ => True
  | statement e => Session.NotOfBlock e
  | invalid _ => False

theorem failure_not_internal {bound : Nat} {feed : Feed} {failure : CompileFailure}
    (h : compileFeed bound feed = .error failure) : failure.NotInternal := by
  rcases hscan : feed.tokens with ⟨tokens, last⟩
  simp only [compileFeed, hscan] at h
  cases hfold : tokens.foldlM (handle bound) {} with
  | error e =>
      rw [hfold] at h
      obtain rfl := Except.error.inj h
      obtain ⟨pre, t, post, mid, -, hpre, hrefused⟩ := exists_refused hfold
      exact (Session.Built.start.leads hpre).handle_fails e hrefused
  | ok s =>
      rw [hfold] at h
      cases last with
      | error e =>
          obtain rfl := Except.error.inj h
          trivial
      | ok eof =>
          have hbuilt := Session.Built.start.leads hfold
          cases failure with
          | scan e => trivial
          | invalid e => exact hbuilt.finish_ne_invalid e h
          | statement e =>
              intro err hcause
              have hend := isAtEnd_of_finish h
              rw [hcause] at hend
              cases hend

/-- Every open place of code under construction is remembered by one open block, and every open
block remembers one open place. Only a second else fails, and it changes nothing. The number of
repeat blocks is kept right. The code is a program when all blocks are closed, with all its places
in it or at its end. So failed patches and invalid programs do not come out of compilation. -/
theorem open_places_have_one_owner :
    (∀ (ops : List BlockOperation) (a : Assembly), (∀ op ∈ ops, op.Valid) →
      ({} : Assembly).run ops = some a →
        (∀ h, a.code.Open h → ∃! i : Nat, ∃ blk, a.blocks.blocks[i]? = some blk ∧ h ∈ blk.holes) ∧
        (∀ blk ∈ a.blocks.blocks, ∃! h, h ∈ blk.holes ∧ a.code.Open h) ∧
        (∀ op : BlockOperation, op.Valid → ∀ a' e, a.apply op = some (a', .error e) ↔
          e = .duplicateElse ∧ op = .otherwise ∧ a.HasElse ∧ a' = a) ∧
        a.blocks.repeats = a.blocks.blocks.countP (·.kind = .repeatLoop) ∧
        ((∃ p, a.code.program = .ok p) ↔ a.blocks.blocks = []) ∧
        ∀ p, a.code.program = .ok p → ∀ ins ∈ p, ∀ slot place, ins.place? slot = some place →
          0 ≤ place ∧ place ≤ p.size) ∧
    ∀ bound source error, compile bound source = .error error → error.failure.NotInternal := by
  constructor
  · intro ops a hops hrun
    have hs := Assembly.sound_empty.run hops hrun
    exact ⟨fun h => hs.existsUnique_owner, fun blk => hs.existsUnique_hole,
      fun op hop a' e => hs.apply_error_iff hop, hs.repeats, hs.program_iff,
      fun p => Buffer.inRange_of_program⟩
  · intro bound source error h
    exact failure_not_internal (compileFeed_of_compile h)

/-- The second else of the inner block fails. The jump that the first one emitted belongs to this
block, and the branch of the repeat block to the outer one. -/
theorem second_else_keeps_owners :
    let ops : List BlockOperation :=
      [.openRepeat (.literal 2), .openIf (.var "X"), .otherwise, .otherwise]
    ∃ a, ({} : Assembly).run ops = some a ∧
      a.blocks.blocks = [.ifThen 2 (some 3), .repeatLoop "#repeat1" 1] ∧
      a.apply .otherwise = some (a, .error .duplicateElse) ∧
      (∀ h, a.code.Open h → ∃! i : Nat, ∃ blk, a.blocks.blocks[i]? = some blk ∧ h ∈ blk.holes) ∧
      (¬ ∃ p, a.code.program = .ok p) ∧
      ∃ error, compile 256 "end" = .error error ∧ error.failure.NotInternal := by
  intro ops
  have hops : ∀ op ∈ ops, op.Valid := by
    simp [ops, BlockOperation.Valid, Expr.isAbsent]
  obtain ⟨howner, -, herror, -, hprogram, -⟩ :=
    open_places_have_one_owner.1 ops _ hops rfl
  refine ⟨_, rfl, rfl, ?_, howner, ?_, _, rfl, open_places_have_one_owner.2 256 "end" _ rfl⟩
  · exact (herror .otherwise trivial _ _).2 ⟨rfl, rfl, ⟨2, 3, rfl⟩, rfl⟩
  · rw [hprogram]
    exact nofun

end Tortoise
