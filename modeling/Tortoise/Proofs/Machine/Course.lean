import Tortoise.Proofs.Machine.Advance

/-!
# The course of a machine

Which instructions a machine executes, and with which variables, is the same with all hosts that
make at most one step or run from inside an action, as each `Host` does. Such a step executes the
action once more, and the instruction that is completed afterwards decides where the machine goes
on. A second step from inside the same action would go one instruction too far, and is not modelled.

So single steps and runs both go through the snapshots of a program, unless the host starts a run
from inside a single step or asks a run to stop.
-/

namespace Tortoise

namespace Machine

variable {σ : Type}

structure Agrees (program : Program) (m : Machine) (x : Snapshot) : Prop where
  program_eq : m.program = program
  valid : m.invalid = none
  unlimited : m.limit = 0
  pc_eq : m.pc = x.pc
  env_eq : m.env = x.env

structure SameCourse (m m' : Machine) : Prop extends SameSetting m m' where
  limit_eq : m'.limit = m.limit
  env_eq : m'.env = m.env

theorem SameCourse.trans {m m' m'' : Machine} (h : m.SameCourse m') (h' : m'.SameCourse m'') :
    m.SameCourse m'' :=
  ⟨h.toSameSetting.trans h'.toSameSetting, h'.limit_eq.trans h.limit_eq,
    h'.env_eq.trans h.env_eq⟩

theorem SameCourse.commit {m m' : Machine} (h : m.SameCourse m') (next : Nat) :
    m.SameCourse (m'.commit next) :=
  ⟨⟨h.program_eq, h.invalid_eq, h.running_eq⟩, h.limit_eq, h.env_eq⟩

theorem SameState.sameCourse {m m' : Machine} (h : m.SameState m') : m.SameCourse m' := by
  rw [h]
  exact ⟨⟨rfl, rfl, rfl⟩, rfl, rfl⟩

theorem Agrees.of_sameCourse {program : Program} {m m' : Machine} {x : Snapshot}
    (h : Agrees program m x) (hsame : m.SameCourse m') (next : Nat) :
    Agrees program (m'.commit next) ⟨next, x.env, x.log⟩ :=
  ⟨hsame.program_eq.trans h.program_eq, hsame.invalid_eq.trans h.valid,
    hsame.limit_eq.trans h.unlimited, rfl, hsame.env_eq.trans h.env_eq⟩

theorem sameState_report (note : Notifier σ) (ins : Instruction) (faults : List Fault) (s : σ)
    (m : Machine) : m.SameState (report note ins faults s m).2 := by
  induction faults generalizing s m with
  | nil => rfl
  | cons fault faults ih => exact (sameState_record m _).trans (ih _ _)

section Steps

variable {h : Host σ} {s : σ} {m : Machine} {program : Program} {x : Snapshot}

def Steady (h : Host σ) (perform : Performer σ) : Prop :=
  ∀ (s : σ) (m : Machine) a value, (m.running = true ∨ h.NeverRuns) →
    (∃ ins, m.program[m.pc]? = some ins ∧ ins.command = .action) →
    m.SameCourse (perform s m a value).2

theorem execute_action_sameCourse {perform : Performer σ} (hsteady : Steady h perform)
    (hguarded : m.running = true ∨ h.NeverRuns) {ins : Instruction}
    (hins : m.program[m.pc]? = some ins) (hcommand : ins.command = .action) :
    m.SameCourse (execute h.note perform ins s m).2.1 := by
  have hreport := sameState_report h.note ins (ins.expr.eval m.valuation).2 s m
  simp only [execute, evaluate, hcommand]
  cases Action.ofCode? ins.action with
  | none => exact hreport.sameCourse
  | some a =>
      refine hreport.sameCourse.trans (hsteady _ _ _ _ ?_ ⟨ins, ?_, hcommand⟩)
      · rw [hreport.sameCourse.running_eq]
        exact hguarded
      · rw [hreport]
        exact hins

/-- Whatever a host does from inside an action leaves the variables and the setting alone. -/
theorem perform_steady (h : Host σ) (fuel depth : Nat) : Steady h (perform h fuel depth) := by
  have hrefl (m : Machine) : m.SameCourse m := ⟨⟨rfl, rfl, rfl⟩, rfl, rfl⟩
  induction depth with
  | zero =>
      intro s m a value _ _
      exact hrefl m
  | succ depth ih =>
      rintro s m a value hguarded ⟨ins, hins, hcommand⟩
      cases hact : h.act s a value with
      | mk s₁ reaction =>
          cases reaction with
          | proceed =>
              simp only [perform, hact]
              exact hrefl m
          | step =>
              simp only [perform, hact, stepWith]
              cases m.invalid with
              | some e => exact hrefl m
              | none =>
                  by_cases hlimit : m.isExhausted = true
                  · simp only [hins, hlimit, if_true]
                    exact hrefl m
                  · simp only [hins, hlimit]
                    exact (execute_action_sameCourse ih hguarded hins hcommand).commit _
          | run =>
              rcases hguarded with hrunning | hnever
              · simp only [perform, hact, runWith, hrunning, if_true]
                exact hrefl m
              · exact absurd (congrArg Prod.snd hact) (hnever s a value)

theorem execute_agrees {perform : Performer σ} (hsteady : Steady h perform)
    (hguarded : m.running = true ∨ h.NeverRuns) (hm : Agrees program m x) {ins : Instruction}
    (hins : program[x.pc]? = some ins) :
    ∃ s' m' next, execute h.note perform ins s m = (s', m', next) ∧ m'.running = m.running ∧
      Agrees program (m'.commit next) (x.after ins) := by
  have hrefl : m.SameCourse m := ⟨⟨rfl, rfl, rfl⟩, rfl, rfl⟩
  obtain ⟨s₁, m₁, hevaluate, hsame⟩ : ∃ s₁ m₁, evaluate h.note ins s m =
      ((ins.expr.eval x.env.get?).1, s₁, m₁) ∧ m.SameCourse m₁ := by
    have hreport := sameState_report h.note ins (ins.expr.eval x.env.get?).2 s m
    refine ⟨(report h.note ins (ins.expr.eval x.env.get?).2 s m).1, _, ?_, hreport.sameCourse⟩
    simp only [evaluate, valuation, hm.env_eq]
  unfold Snapshot.after
  cases hcommand : ins.command with
  | assign =>
      simp only [execute, hcommand, hevaluate, hm.pc_eq]
      have hafter := hm.of_sameCourse hsame (x.pc + 1)
      refine ⟨_, _, _, rfl, hsame.running_eq, hafter.program_eq, hafter.valid, hafter.unlimited,
        rfl, ?_⟩
      change m₁.env.set ins.name _ = _
      rw [hsame.env_eq, hm.env_eq]
  | jump =>
      simp only [execute, hcommand]
      exact ⟨s, m, _, rfl, rfl, hm.of_sameCourse hrefl _⟩
  | branch =>
      simp only [execute, hcommand, hevaluate]
      have hafter := hm.of_sameCourse hsame
      exact ⟨_, _, _, rfl, hsame.running_eq, (hafter 0).program_eq, (hafter 0).valid,
        (hafter 0).unlimited, rfl, (hafter 0).env_eq⟩
  | action =>
      have hins' : m.program[m.pc]? = some ins := by rw [hm.program_eq, hm.pc_eq]; exact hins
      have hdone := execute_action_sameCourse (s := s) hsteady hguarded hins' hcommand
      obtain ⟨s', m', next, hexecute⟩ : ∃ s' m' next,
        execute h.note perform ins s m = (s', m', next) := ⟨_, _, _, rfl⟩
      have hnext : next = x.pc + 1 := by
        have hpair := congrArg (·.2.2) hexecute
        simp only [execute, hcommand, hevaluate, hm.pc_eq] at hpair
        cases haction : Action.ofCode? ins.action <;> simp only [haction] at hpair <;>
          exact hpair.symm
      rw [hexecute] at hdone
      have hafter := hm.of_sameCourse hdone (x.pc + 1)
      refine ⟨s', m', next, hexecute, hdone.running_eq, ?_⟩
      rw [hnext]
      cases Action.ofCode? ins.action with
      | none => exact ⟨hafter.program_eq, hafter.valid, hafter.unlimited, rfl, hafter.env_eq⟩
      | some a => exact ⟨hafter.program_eq, hafter.valid, hafter.unlimited, rfl, hafter.env_eq⟩
  | unset =>
      simp only [execute, hcommand, hm.pc_eq]
      refine ⟨s, _, _, rfl, rfl, hm.program_eq, hm.valid, hm.unlimited, rfl, ?_⟩
      change m.env.erase ins.name = _
      rw [hm.env_eq]
  | unknown spelling foreign =>
      simp only [execute, hcommand, hm.pc_eq]
      exact ⟨s, m, _, rfl, rfl, hm.of_sameCourse hrefl _⟩

theorem Agrees.isHalted_eq (hm : Agrees program m x) :
    m.isHalted = decide (program.size ≤ x.pc) := by
  rw [isHalted, hm.program_eq, hm.pc_eq]

/-- A step of the machine is a step of the snapshot. -/
theorem stepWith_agrees {perform : Performer σ} (hsteady : Steady h perform)
    (hguarded : m.running = true ∨ h.NeverRuns) (hm : Agrees program m x) :
    ∃ s' m', stepWith h.note perform s m = (s', m', .ok (!m'.isHalted)) ∧
      m'.running = m.running ∧ Agrees program m' (x.next program) := by
  unfold stepWith Snapshot.next
  simp only [hm.valid, hm.program_eq, hm.pc_eq]
  cases hins : program[x.pc]? with
  | none =>
      have hhalted : m.isHalted = true := by
        rw [hm.isHalted_eq]
        simpa using hins
      exact ⟨s, m, by simp [hhalted], rfl, hm⟩
  | some ins =>
      have hgo : m.isExhausted = false := by simp [isExhausted, hm.unlimited]
      obtain ⟨s', m', next, hexecute, hrunning, hafter⟩ :=
        execute_agrees (s := s) hsteady hguarded hm hins
      simp only [hgo, hexecute]
      exact ⟨s', m'.commit next, rfl, hrunning, hafter⟩

end Steps

def afterSteps (h : Host σ) (fuel depth : Nat) : Nat → σ → Machine → σ × Machine
  | 0, s, m => (s, m)
  | n + 1, s, m =>
    let (s, m, _) := m.step h fuel depth s
    afterSteps h fuel depth n s m

section Courses

variable {h : Host σ} {s : σ} {m : Machine} {program : Program} {x : Snapshot}

theorem afterSteps_agrees (hnever : h.NeverRuns) (fuel depth n : Nat)
    (hm : Agrees program m x) :
    Agrees program (afterSteps h fuel depth n s m).2 (x.go program n) := by
  induction n generalizing s m x with
  | zero => exact hm
  | succ n ih =>
      obtain ⟨s', m', hstep, _, hm'⟩ :=
        stepWith_agrees (s := s) (perform_steady h fuel depth) (Or.inr hnever) hm
      simp only [afterSteps, step, hstep]
      exact ih hm'

/-- A run that nobody stops goes through the snapshots and ends when they do. -/
theorem run_agrees (hstop : ∀ s, h.stop s = none) (fuel depth : Nat)
    (hidle : m.running = false) (hm : Agrees program m x) :
    ∃ s' m', m.run h fuel depth s =
        (s', m', if fuel ≠ 0 ∧ m'.isHalted = true then some (.ok ()) else none) ∧
      Agrees program m' (x.go program fuel) := by
  have hstep {s : σ} {m : Machine} {x : Snapshot}
      (hm : m.running = true ∧ Agrees program m x) :
      ∃ s' m', stepWith h.note (perform h fuel depth) s m = (s', m', .ok (!m'.isHalted)) ∧
        m'.running = true ∧ Agrees program m' (x.next program) := by
    obtain ⟨s', m', hstep, hrunning, hm'⟩ :=
      stepWith_agrees (s := s) (perform_steady h fuel depth) (Or.inl hm.1) hm.2
    exact ⟨s', m', hstep, hrunning.trans hm.1, hm'⟩
  obtain ⟨s', m', hloop, _, hm'⟩ := runLoop_keeps (s := s) (m := { m with running := true })
    (R := fun _ m x => m.running = true ∧ Agrees program m x) hstop
    (fun hm => hm.2.isHalted_eq) hstep fuel
    ⟨rfl, hm.program_eq, hm.valid, hm.unlimited, hm.pc_eq, hm.env_eq⟩
  refine ⟨s', { m' with running := false }, ?_, ?_⟩
  · simp only [run, runWith, hidle, hloop]
    rfl
  · exact ⟨hm'.program_eq, hm'.valid, hm'.unlimited, hm'.pc_eq, hm'.env_eq⟩

end Courses

end Machine

end Tortoise
