import Tortoise.Proofs.Compile.Extent
import Tortoise.Proofs.Machine.Course
import Tortoise.Proofs.Program.Accepted
import Tortoise.Proofs.Program.Ownership

/-!
# Valid programs stay in bounds

A program that was compiled or read names no place outside of it, and each expression that it
evaluates is complete. So wherever its machine is stepped and run to, also from inside an action,
there is an instruction to execute or the program is at its end, and only the step limit can stop a
step. A machine with an invalid program, or at the end of its program, stays as it is.
-/

namespace Tortoise

namespace Instruction

def destinations (ins : Instruction) (i : Nat) : List Int :=
  match ins.command with
  | .jump => [ins.target]
  | .branch => [ins.onTrue, ins.onFalse]
  | _ => [(i : Int) + 1]

def IsWhole (ins : Instruction) : Prop := ins.expr = .absent ∨ ins.expr.isComplete = true

def EvaluatesNothing (ins : Instruction) : Prop :=
  ∀ {σ : Type} (note : Notifier σ) (perform : Performer σ) (e : Expr) (s : σ) (m : Machine),
    Machine.execute note perform { ins with expr := e } s m =
      Machine.execute note perform ins s m

variable {ins : Instruction} {size i : Nat}

theorem destinations_inRange (h : ins.flaw? size = none) (hi : i < size) :
    ∀ place ∈ ins.destinations i, 0 ≤ place ∧ place ≤ size := by
  obtain ⟨-, hplaces⟩ := flaw?_eq_none_iff.1 h
  intro place hplace
  unfold destinations at hplace
  split at hplace
  next hcommand =>
    obtain rfl := List.mem_singleton.1 hplace
    exact inRange_iff.1 (hplaces .target _ (by simp [place?, hcommand]))
  next hcommand =>
    rcases List.mem_pair.1 hplace with rfl | rfl
    · exact inRange_iff.1 (hplaces .onTrue _ (by simp [place?, hcommand]))
    · exact inRange_iff.1 (hplaces .onFalse _ (by simp [place?, hcommand]))
  next =>
    obtain rfl := List.mem_singleton.1 hplace
    omega

theorem isComplete_or_evaluatesNothing (h : ins.flaw? size = none) (hwhole : ins.IsWhole) :
    ins.expr.isComplete = true ∨ ins.EvaluatesNothing := by
  rcases hwhole with habsent | hcomplete
  · right
    intro σ note perform e s m
    -- The commands that evaluate are flawed without an expression.
    cases hcommand : ins.command with
    | jump | unset | unknown => simp only [Machine.execute, hcommand]
    | assign | branch => simp [flaw?, hcommand, habsent, Expr.isAbsent] at h
    | action =>
        cases haction : Action.ofCode? ins.action <;>
          simp [flaw?, hcommand, haction, habsent, Expr.isAbsent] at h
  · exact Or.inl hcomplete

end Instruction

theorem Program.flaw?_of_valid {p : Program} (h : p.invalid? = none) {ins : Instruction}
    (hins : ins ∈ p) : ins.flaw? p.size = none := by
  have hprogram : Buffer.program ⟨p⟩ = .ok p := by simp [Buffer.program, h]
  exact (Buffer.program_eq_ok_iff.1 hprogram).2 ins hins

/-- No instruction of a valid program leads out of it. -/
theorem Program.destinations_inRange {p : Program} (h : p.invalid? = none) {i : Nat}
    {ins : Instruction} (hins : p[i]? = some ins) :
    ∀ place ∈ ins.destinations i, 0 ≤ place ∧ place ≤ p.size := by
  obtain ⟨hlt, -⟩ := Array.getElem?_eq_some_iff.1 hins
  exact Instruction.destinations_inRange (flaw?_of_valid h (Array.mem_of_getElem? hins)) hlt

theorem Simple.Plain.isWhole {statement : Simple} (h : statement.Plain) :
    statement.instruction.IsWhole := by
  right
  cases statement with
  | assign name value => exact h.2.isComplete
  | increment name | decrement name =>
      simp [Simple.instruction, Instruction.assign, Expr.isComplete, Infix.isKnown,
        Text.ne_nil_of_isIdentifier h]
  | act action argument => exact h.isComplete

theorem Opening.Plain.isWhole {opening : Opening} (h : opening.Plain) {b depth : Nat}
    {inner : List Instruction} (hinner : ∀ ins ∈ inner, ins.IsWhole) :
    ∀ ins ∈ opening.wrap b depth inner, ins.IsWhole := by
  cases opening with
  | ifThen cond => exact List.forall_mem_cons.2 ⟨Or.inr h.isComplete, hinner⟩
  | loop negated cond =>
      simp only [wrap, List.forall_mem_cons, List.forall_mem_append]
      exact ⟨Or.inr (Expr.Plain.test h negated).isComplete, hinner, Or.inl rfl, by simp⟩
  | repeatLoop count =>
      simp only [wrap, List.forall_mem_cons, List.forall_mem_append]
      exact ⟨Or.inr h.isComplete, Or.inr rfl, hinner, Or.inr rfl, Or.inl rfl, Or.inl rfl, by simp⟩

theorem Body.Plain.isWhole {body : Body} (h : body.Plain) (b depth : Nat) :
    ∀ ins ∈ body.code b depth, ins.IsWhole := by
  induction body generalizing b depth with
  | done => simp [code]
  | simple statement next ih => exact List.forall_mem_cons.2 ⟨h.1.isWhole, ih h.2 _ _⟩
  | block opening inner next ihi ihn =>
      exact List.forall_mem_append.2 ⟨h.1.isWhole (ihi h.2.1 _ _), ihn h.2.2 _ _⟩
  | ifElse cond yes no next ihy ihn ihx =>
      simp only [code, List.forall_mem_cons, List.forall_mem_append]
      exact ⟨Or.inr h.1.isComplete, ihy h.2.1 _ _, Or.inl rfl, ihn h.2.2.1 _ _, ihx h.2.2.2 _ _⟩

theorem isWhole_of_compile {bound : Nat} {source : Text} {p : Program}
    (h : compile bound source = .ok p) :
    p.invalid? = none ∧ ∀ ins ∈ p, ins.IsWhole := by
  obtain ⟨tokens, eof, body, -, hbody, rfl⟩ := exists_body_of_compile h
  refine ⟨hbody.plain.invalid?, fun ins hins => ?_⟩
  exact hbody.plain.isWhole 0 0 ins (by simpa [Body.program] using hins)

theorem isWhole_of_decode {b : Bytes} {p : Program} (h : Binary.decode b = .ok p) :
    p.invalid? = none ∧ ∀ ins ∈ p, ins.IsWhole := by
  obtain ⟨stored, -, hcode, hvalid⟩ := Binary.decode_eq_ok_iff.1 h
  refine ⟨hvalid, fun ins hins => ?_⟩
  obtain ⟨⟨form, index⟩, -, hform⟩ := (exists_of_mapM_eq_ok hcode).2 ins (by simpa using hins)
  simp only [Binary.decodeInstruction] at hform
  split at hform
  next => cases hform
  next e hexpr =>
    obtain rfl := Except.ok.inj hform
    exact (Node.toExpr_sound hexpr).1.imp_left And.right

namespace Machine

variable {σ : Type}

/-- What steps and runs lead to, each of them made with a host of its own. A run is cut short by its
fuel, so that the states in its course are among them, and so are those in which a host performs an
action, from where it may go on with steps and runs. -/
inductive Reaches (s₀ : σ) (m₀ : Machine) : σ → Machine → Prop
  | here : Reaches s₀ m₀ s₀ m₀
  | step {s : σ} {m : Machine} (h : Host σ) (fuel depth : Nat) : Reaches s₀ m₀ s m →
      Reaches s₀ m₀ (m.step h fuel depth s).1 (m.step h fuel depth s).2.1
  | run {s : σ} {m : Machine} (h : Host σ) (fuel depth : Nat) : Reaches s₀ m₀ s m →
      Reaches s₀ m₀ (m.run h fuel depth s).1 (m.run h fuel depth s).2.1
  | inside {s : σ} {m : Machine} (h : Host σ) (running : Bool) {ins : Instruction} {a : Action} :
      Reaches s₀ m₀ s m → m.invalid = none → m.program[m.pc]? = some ins →
      m.isExhausted = false → ins.command = .action → Action.ofCode? ins.action = some a →
      Reaches s₀ m₀
        (h.act (evaluate h.note ins s m).2.1 a (evaluate h.note ins s m).1).1
        { (evaluate h.note ins s m).2.2 with running }

section Still

variable {s : σ} {m : Machine}

def Still (m : Machine) : Prop := m.invalid.isSome = true ∨ m.isHalted = true

theorem Still.stepWith_eq (hm : m.Still) (note : Notifier σ) (perform : Performer σ) (s : σ) :
    stepWith note perform s m = (s, m, m.invalid.elim (.ok false) .error) := by
  unfold stepWith
  cases hinvalid : m.invalid with
  | some e => rfl
  | none =>
      have hsize : m.program.size ≤ m.pc := by simpa [Still, hinvalid, isHalted] using hm
      rw [Array.getElem?_eq_none hsize]
      rfl

def stillOutcome (h : Host σ) (s : σ) (m : Machine) : Except RunError Unit :=
  match h.stop s, m.invalid with
  | some cause, _ => .error (.runtime (.stopped cause m.timeout m.pc))
  | none, some e => .error (.runtime e)
  | none, none => .ok ()

theorem Still.runLoop_eq (hm : m.Still) (h : Host σ) (perform : Performer σ) (fuel : Nat) (s : σ) :
    runLoop h perform fuel s m =
      (s, m, if fuel = 0 then none else some (stillOutcome h s m)) := by
  cases fuel with
  | zero => rfl
  | succ fuel =>
      simp only [runLoop, stillOutcome, hm.stepWith_eq]
      cases h.stop s with
      | some cause => rfl
      | none => cases m.invalid <;> rfl

theorem Still.run_eq_of_idle (hm : m.Still) (hidle : m.running = false) (h : Host σ)
    (fuel depth : Nat) (s : σ) :
    m.run h fuel depth s = (s, m, if fuel = 0 then none else some (stillOutcome h s m)) := by
  have hloop : Still { m with running := true } := hm
  have hback : { m with running := false } = m := by rw [← hidle]
  rw [run, runWith, hidle, hloop.runLoop_eq]
  exact congrArg (fun m' => (s, m', _)) hback

theorem Still.run_eq (hm : m.Still) (h : Host σ) (fuel depth : Nat) (s : σ) :
    ∃ outcome, m.run h fuel depth s = (s, m, outcome) := by
  cases hrunning : m.running with
  | true => exact ⟨some (.error .busy), by rw [run, runWith, hrunning]; rfl⟩
  | false => exact ⟨_, hm.run_eq_of_idle hrunning h fuel depth s⟩

/-- Nothing else is reached from a machine that stays as it is. -/
theorem Still.eq_of_reaches (hm : m.Still) {s' : σ} {m' : Machine} (h : Reaches s m s' m') :
    s' = s ∧ m' = m := by
  induction h with
  | here => exact ⟨rfl, rfl⟩
  | step h fuel depth _ ih =>
      obtain ⟨rfl, rfl⟩ := ih
      rw [step, hm.stepWith_eq]
      exact ⟨rfl, rfl⟩
  | run h fuel depth _ ih =>
      obtain ⟨rfl, rfl⟩ := ih
      obtain ⟨outcome, hrun⟩ := hm.run_eq h fuel depth _
      rw [hrun]
      exact ⟨rfl, rfl⟩
  | inside h running _ hvalid hins _ _ _ ih =>
      obtain ⟨rfl, rfl⟩ := ih
      obtain ⟨hlt, -⟩ := Array.getElem?_eq_some_iff.1 hins
      rcases hm with hinvalid | hhalted
      · simp [hvalid] at hinvalid
      · simp only [isHalted, decide_eq_true_eq] at hhalted
        omega

end Still

section Bounds

variable {program : Program} {s : σ} {m : Machine}

structure Bounded (program : Program) (m : Machine) : Prop where
  program_eq : m.program = program
  valid : m.invalid = none
  pc_le : m.pc ≤ program.size

def Contained (program : Program) (perform : Performer σ) : Prop :=
  ∀ (s : σ) (m : Machine) a value, Bounded program m → Bounded program (perform s m a value).2

theorem Bounded.of_sameState {m' : Machine} (hm : m.Bounded program) (h : m.SameState m') :
    m'.Bounded program := by
  rw [h]
  exact ⟨hm.program_eq, hm.valid, hm.pc_le⟩

theorem Bounded.evaluate (hm : m.Bounded program) (note : Notifier σ) (ins : Instruction) (s : σ) :
    (evaluate note ins s m).2.2.Bounded program :=
  hm.of_sameState (sameState_report note ins _ s m)

/-- Executing an instruction keeps the machine in bounds and goes on at a place that the instruction
names. -/
theorem execute_bounded (hvalid : program.invalid? = none) {perform : Performer σ}
    (hperform : Contained program perform) (note : Notifier σ) (hm : m.Bounded program)
    {ins : Instruction} (hins : program[m.pc]? = some ins) :
    (execute note perform ins s m).2.1.Bounded program ∧
      ((execute note perform ins s m).2.2 : Int) ∈ ins.destinations m.pc := by
  have hrange := Program.destinations_inRange hvalid hins
  have hevaluate := hm.evaluate note ins s
  cases hcommand : ins.command with
  | assign =>
      simp only [execute, hcommand, Instruction.destinations]
      exact ⟨⟨hevaluate.program_eq, hevaluate.valid, hevaluate.pc_le⟩, by simp⟩
  | jump =>
      simp only [execute, hcommand, Instruction.destinations] at hrange ⊢
      refine ⟨hm, ?_⟩
      rw [Int.toNat_of_nonneg (hrange _ List.mem_cons_self).1]
      exact List.mem_cons_self
  | branch =>
      simp only [execute, hcommand, Instruction.destinations] at hrange ⊢
      refine ⟨hevaluate, ?_⟩
      split
      · rw [Int.toNat_of_nonneg (hrange _ List.mem_cons_self).1]
        exact List.mem_cons_self
      · rw [Int.toNat_of_nonneg (hrange _ (List.mem_cons_of_mem _ List.mem_cons_self)).1]
        exact List.mem_cons_of_mem _ List.mem_cons_self
  | action =>
      simp only [execute, hcommand, Instruction.destinations]
      cases Action.ofCode? ins.action with
      | none => exact ⟨hevaluate, by simp⟩
      | some a => exact ⟨hperform _ _ _ _ hevaluate, by simp⟩
  | unset =>
      simp only [execute, hcommand, Instruction.destinations]
      exact ⟨⟨hm.program_eq, hm.valid, hm.pc_le⟩, by simp⟩
  | unknown spelling foreign =>
      simp only [execute, hcommand, Instruction.destinations]
      exact ⟨hm, by simp⟩

def Proceeds (m m' : Machine) : Prop :=
  m'.pc = m.pc ∨ ∃ ins, m.program[m.pc]? = some ins ∧ (m'.pc : Int) ∈ ins.destinations m.pc

def stepOutcome (m m' : Machine) : Except RuntimeError Bool :=
  if m.isHalted then .ok false
  else if m.isExhausted then .error (.stepLimit m.limit m.pc)
  else .ok (!m'.isHalted)

theorem stepWith_bounded (hvalid : program.invalid? = none) {perform : Performer σ}
    (hperform : Contained program perform) (note : Notifier σ) (hm : m.Bounded program) :
    ∃ s' m', stepWith note perform s m = (s', m', m.stepOutcome m') ∧ m'.Bounded program ∧
      m.Proceeds m' := by
  by_cases hhalted : m.isHalted = true
  · refine ⟨s, m, ?_, hm, Or.inl rfl⟩
    have hstill : m.Still := Or.inr hhalted
    rw [hstill.stepWith_eq, stepOutcome, if_pos hhalted, hm.valid]
    rfl
  · obtain ⟨ins, hins⟩ : ∃ ins, program[m.pc]? = some ins := by
      rw [isHalted, hm.program_eq, decide_eq_true_eq, Nat.not_le] at hhalted
      exact ⟨_, Array.getElem?_eq_getElem hhalted⟩
    simp only [stepWith, stepOutcome, hhalted, hm.valid, hm.program_eq, hins]
    by_cases hlimit : m.isExhausted = true
    · simp only [hlimit]
      exact ⟨s, m, rfl, hm, Or.inl rfl⟩
    · obtain ⟨hnext, hplace⟩ := execute_bounded (s := s) hvalid hperform note hm hins
      have hrange := Program.destinations_inRange hvalid hins _ hplace
      simp only [hlimit]
      refine ⟨_, _, rfl, ⟨hnext.program_eq, hnext.valid, ?_⟩, Or.inr ⟨ins, ?_, hplace⟩⟩
      · exact Int.ofNat_le.1 hrange.2
      · rw [hm.program_eq]
        exact hins

theorem runLoop_bounded (hvalid : program.invalid? = none) {perform : Performer σ}
    (hperform : Contained program perform) (h : Host σ) (fuel : Nat) (hm : m.Bounded program) :
    (runLoop h perform fuel s m).2.1.Bounded program := by
  induction fuel generalizing s m with
  | zero => exact hm
  | succ fuel ih =>
      obtain ⟨s', m', hstep, hm', -⟩ := stepWith_bounded (s := s) hvalid hperform h.note hm
      cases hstop : h.stop s with
      | some cause =>
          simp only [runLoop, hstop]
          exact hm
      | none =>
          simp only [runLoop, hstop, hstep]
          cases m.stepOutcome m' with
          | error e => exact hm'
          | ok going =>
              cases going with
              | false => exact hm'
              | true => exact ih hm'

theorem runWith_bounded (hvalid : program.invalid? = none) {perform : Performer σ}
    (hperform : Contained program perform) (h : Host σ) (fuel : Nat) (hm : m.Bounded program) :
    (runWith h perform fuel s m).2.1.Bounded program := by
  unfold runWith
  split
  · exact hm
  · have hloop := runLoop_bounded (s := s) (m := { m with running := true }) hvalid hperform h fuel
      ⟨hm.program_eq, hm.valid, hm.pc_le⟩
    exact ⟨hloop.program_eq, hloop.valid, hloop.pc_le⟩

/-- Whatever a host does from inside an action keeps the machine in bounds. -/
theorem perform_contained (hvalid : program.invalid? = none) (h : Host σ) (fuel depth : Nat) :
    Contained program (perform h fuel depth) := by
  induction depth with
  | zero =>
      intro s m a value hm
      exact hm
  | succ depth ih =>
      intro s m a value hm
      unfold perform
      split
      next => exact hm
      next s' _ =>
        obtain ⟨s'', m', hstep, hm', -⟩ := stepWith_bounded (s := s') hvalid ih h.note hm
        rw [hstep]
        exact hm'
      next => exact runWith_bounded hvalid ih h fuel hm

theorem Reaches.bounded (hvalid : program.invalid? = none) {s₀ : σ} {m₀ : Machine}
    (h : Reaches s₀ m₀ s m) (hm₀ : m₀.Bounded program) : m.Bounded program := by
  induction h with
  | here => exact hm₀
  | @step s m h fuel depth _ ih =>
      obtain ⟨s', m', hstep, hm', -⟩ :=
        stepWith_bounded (s := s) hvalid (perform_contained hvalid h fuel depth) h.note ih
      rw [Machine.step, hstep]
      exact hm'
  | run h fuel depth _ ih =>
      exact runWith_bounded hvalid (perform_contained hvalid h fuel depth) h fuel ih
  | @inside s m h running ins a _ _ _ _ _ _ ih =>
      have hevaluate := ih.evaluate h.note ins s
      exact ⟨hevaluate.program_eq, hevaluate.valid, hevaluate.pc_le⟩

end Bounds

/-- A machine that stands in its program or at its end, with a host of some state. Every place at
which the instruction at hand may go on is in the program or at its end, too. A step fails at the
step limit only; at the end of the program nothing changes any more. -/
structure InBounds (program : Program) (s : σ) (m : Machine) : Prop where
  pc_le : m.pc ≤ program.size
  fetch : m.isHalted = false → ∃ ins, program[m.pc]? = some ins ∧
    ∀ place ∈ ins.destinations m.pc, 0 ≤ place ∧ place ≤ program.size
  step_eq : ∀ (h : Host σ) (fuel depth : Nat), ∃ s' m',
    m.step h fuel depth s = (s', m', m.stepOutcome m') ∧ m.Proceeds m'
  halted : m.isHalted = true → ∀ s' m', Reaches s m s' m' → s' = s ∧ m' = m

theorem Bounded.inBounds {program : Program} (hvalid : program.invalid? = none) {m : Machine}
    (hm : m.Bounded program) (s : σ) : m.InBounds program s := by
  refine ⟨hm.pc_le, fun hrunning => ?_, fun h fuel depth => ?_, fun hhalted s' m' hreaches => ?_⟩
  · have hlt : m.pc < program.size := by simpa [isHalted, hm.program_eq] using hrunning
    have hins := Array.getElem?_eq_getElem hlt
    exact ⟨program[m.pc], hins, Program.destinations_inRange hvalid hins⟩
  · obtain ⟨s', m', hstep, -, hproceeds⟩ :=
      stepWith_bounded (s := s) hvalid (perform_contained hvalid h fuel depth) h.note hm
    exact ⟨s', m', hstep, hproceeds⟩
  · have hstill : m.Still := Or.inr hhalted
    exact hstill.eq_of_reaches hreaches

end Machine

/-- A program that was compiled or read evaluates complete trees only, and its machine stays in
bounds in all states that are reached. The machine of an invalid program stays at its start, where
every step and every run fails. -/
theorem machine_stays_in_bounds :
    (∀ program : Program,
      (∃ bound source, compile bound source = .ok program) ∨
        (∃ b, Binary.decode b = .ok program) →
      (∀ ins ∈ program, ins.expr.isComplete = true ∨ ins.EvaluatesNothing) ∧
      ∀ {σ : Type} (s₀ s : σ) (limit : Int) (timeout : Duration) (env : Env) (m : Machine),
        Machine.Reaches s₀ { Machine.new program limit timeout with env } s m →
          m.InBounds program s) ∧
    ∀ (program : Program) (e : InvalidProgram), program.invalid? = some e →
      ∀ {σ : Type} (s₀ : σ) (limit : Int) (timeout : Duration) (env : Env),
        let m₀ := { Machine.new program limit timeout with env }
        (∀ s m, Machine.Reaches s₀ m₀ s m → s = s₀ ∧ m = m₀) ∧
        ∀ (h : Host σ) (fuel depth : Nat),
          m₀.step h fuel depth s₀ = (s₀, m₀, .error (.ofInvalid e.message)) ∧
          ∃ error, m₀.run h (fuel + 1) depth s₀ = (s₀, m₀, some (.error error)) ∧
            (h.stop s₀ = none → error = .runtime (.ofInvalid e.message)) := by
  refine ⟨fun program horigin => ?_, fun program e hinvalid σ s₀ limit timeout env => ?_⟩
  · obtain ⟨hvalid, hwhole⟩ : program.invalid? = none ∧ ∀ ins ∈ program, ins.IsWhole := by
      rcases horigin with ⟨bound, source, hcompile⟩ | ⟨b, hdecode⟩
      · exact isWhole_of_compile hcompile
      · exact isWhole_of_decode hdecode
    refine ⟨fun ins hins => ?_, fun s₀ s limit timeout env m hreaches => ?_⟩
    · exact Instruction.isComplete_or_evaluatesNothing (Program.flaw?_of_valid hvalid hins)
        (hwhole ins hins)
    · have hstart : Machine.Bounded program { Machine.new program limit timeout with env } :=
        ⟨rfl, by simp [Machine.new, hvalid], Nat.zero_le _⟩
      exact (hreaches.bounded hvalid hstart).inBounds hvalid s
  · intro m₀
    have hcause : m₀.invalid = some (.ofInvalid e.message) := by simp [m₀, Machine.new, hinvalid]
    have hstill : m₀.Still := Or.inl (by rw [hcause]; rfl)
    refine ⟨fun s m hreaches => hstill.eq_of_reaches hreaches, fun h fuel depth => ⟨?_, ?_⟩⟩
    · rw [Machine.step, hstill.stepWith_eq, hcause]
      rfl
    · rw [hstill.run_eq_of_idle rfl, if_neg (Nat.succ_ne_zero fuel), Machine.stillOutcome, hcause]
      cases h.stop s₀ with
      | some cause => exact ⟨_, rfl, fun hstop => by cases hstop⟩
      | none => exact ⟨_, rfl, fun _ => rfl⟩

/-- A branch may go to the end of the program, where the machine halts; a jump beyond it is never
made. -/
theorem branch_to_end_in_bounds :
    let h : Host Unit := { act := fun s _ _ => (s, .proceed) }
    let stray : Machine := { Machine.new #[.jump 2] 0 .zero with env := {} }
    ∃ program : Program, compile 256 (Text.ofString "if 0 end") = .ok program ∧
      program[0]? = some (.branch (.literal 0) 1 1) ∧
      (let m := ({ Machine.new program 0 .zero with env := {} }.step h 0 0 ()).2.1
      m.pc = 1 ∧ m.isHalted = true ∧ m.InBounds program ()) ∧
      ∃ e, Program.invalid? #[.jump 2] = some e ∧
        stray.step h 0 0 () = ((), stray, .error (.ofInvalid e.message)) := by
  intro h stray
  let body : Body := .block (.ifThen (.literal 0)) .done .done
  let tokens : List Token := [⟨.keyword, Text.ofString "if", ⟨1, 1⟩⟩,
    ⟨.expression, Text.ofString "0", ⟨1, 4⟩⟩, ⟨.keyword, Text.ofString "end", ⟨1, 6⟩⟩]
  have htokens : (Feed.ofText (Text.ofString "if 0 end") none).tokens =
      (tokens, .ok ⟨.eof, [], ⟨1, 9⟩⟩) := rfl
  have hzero : Token.Reads 256 ⟨.expression, Text.ofString "0", ⟨1, 4⟩⟩ (.literal 0) :=
    Token.reads_numeral _ (by decide) (by decide) (by decide)
  have hbody : body.Derives 256 tokens := .block (.ifThen rfl hzero) .done rfl .done
  have hcompile := compile_of_derives htokens hbody
  obtain ⟨hvalid, hinvalid⟩ := machine_stays_in_bounds
  let start : Machine := { Machine.new body.program 0 .zero with env := {} }
  have hreaches : Machine.Reaches () start _ _ := .step h 0 0 .here
  refine ⟨body.program, hcompile, rfl, ⟨rfl, rfl, ?_⟩, ?_⟩
  · exact (hvalid body.program (Or.inl ⟨_, _, hcompile⟩)).2 () _ 0 .zero {} _ hreaches
  · have hflaw : Program.invalid? #[.jump 2] = some ⟨0, .jumpOutOfRange 2 1⟩ := rfl
    exact ⟨_, hflaw, ((hinvalid _ _ hflaw () 0 .zero {}).2 h 0 0).1⟩

end Tortoise
