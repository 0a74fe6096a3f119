import Tortoise.Proofs.Machine.Course

/-!
# Stopping and resuming

A machine may be stepped, run, stopped before any instruction and run again. Whatever calls are
made, it goes through the stages of a machine that has no limit and is never stopped, and its
number of steps says at which stage it is. `Machine.stage` gives the log and the machine at a stage,
and a machine is `OnCourse` if that is what it is without its limits.

A run that the host makes from inside an action of a run is refused. One that it makes from inside
a single step is not: it executes the action at hand once more and goes on behind it, and then the
step is completed on top of that. So the host of a single step must not call back.
-/

namespace Tortoise

namespace Host

variable {σ : Type}

def NeverSteps (h : Host σ) : Prop := ∀ s a value, (h.act s a value).2 ≠ .step

def scribe : Host (List Event) where
  act log a value := (log ++ [.action a value], .proceed)
  note log d := log ++ [.diagnostic d.kind d.detail]

/-- The host that hears of a refusal where `h` makes a run. -/
def refused (h : Host σ) : Host σ :=
  { h with
    act := fun s a value =>
      match h.act s a value with
      | (s, .run) => (h.ran s (.error .busy), .proceed)
      | other => other }

end Host

namespace Machine

variable {σ : Type}

def unbounded (m : Machine) : Machine :=
  { m with limit := 0, timeout := .zero, running := false }

def stage (program : Program) (env : Env) : Nat → List Event × Machine
  | 0 => ([], { Machine.new program 0 .zero with env })
  | n + 1 =>
    let (log, m) := stage program env n
    let (log, m, _) := m.step Host.scribe 0 0 log
    (log, m)

def OnCourse (program : Program) (env : Env) (log : List Event) (m : Machine) : Prop :=
  (log, m.unbounded) = stage program env m.steps

/-- A run that is found stopped from outside at look number `cut`, counted from 0, unless it has
ended before: from there on its host asks for the stop. -/
def runUntil (h : Host σ) (depth cut : Nat) (cause : Cause) (s : σ) (m : Machine) :
    σ × Machine × Option (Except RunError Unit) :=
  match m.run h cut depth s with
  | (s, m, some outcome) => (s, m, some outcome)
  | (s, m, none) => m.run { h with stop := fun _ => some cause } 1 depth s

end Machine

inductive Call (σ : Type) where
  | step (host : Host σ)
  /-- A run that is found stopped at look number `cut`. -/
  | run (host : Host σ) (cut : Nat) (cause : Cause)

namespace Call

variable {σ : Type}

def Allowed : Call σ → Prop
  | step h => h.NeverSteps ∧ h.NeverRuns
  | run h _ _ => h.NeverSteps

def make (fuel depth : Nat) (r : (σ × List Event) × Machine) :
    Call σ → (σ × List Event) × Machine
  | step h =>
    let (s, m, _) := r.2.step h.recorded fuel depth r.1
    (s, m)
  | run h cut cause =>
    let (s, m, _) := r.2.runUntil h.recorded depth cut cause r.1
    (s, m)

def makeAll (fuel depth : Nat) (r : (σ × List Event) × Machine) (calls : List (Call σ)) :
    (σ × List Event) × Machine :=
  calls.foldl (make fuel depth) r

end Call

namespace Machine

variable {σ : Type}

/-- What is asked of a performer: it lets the host perform an action and leaves the machine alone,
provided that the machine is running or not, as given. -/
def Aloof (running : Bool) (perform : Performer (σ × List Event)) : Prop :=
  ∀ s log m a value, m.running = running →
    ∃ s', perform (s, log) m a value = ((s', log ++ [.action a value]), m)

theorem aloof_perform {h : Host σ} (hsteps : h.NeverSteps) {running : Bool}
    (hruns : running = true ∨ h.NeverRuns) (fuel depth : Nat) :
    Aloof running (perform h.recorded fuel depth) := by
  intro s log m a value hrunning
  cases depth with
  | zero => exact ⟨_, rfl⟩
  | succ depth =>
      cases hact : h.act s a value with
      | mk s₁ reaction =>
          cases reaction with
          | proceed => exact ⟨s₁, by simp [perform, Host.recorded, hact]⟩
          | step => exact absurd (congrArg Prod.snd hact) (hsteps s a value)
          | run =>
              rcases hruns with htrue | hnever
              · refine ⟨h.ran s₁ (.error .busy), ?_⟩
                simp [perform, Host.recorded, hact, runWith, hrunning, htrue]
              · exact absurd (congrArg Prod.snd hact) (hnever s a value)

structure SameFrame (m m' : Machine) : Prop extends SameSetting m m' where
  limit_eq : m'.limit = m.limit
  steps_eq : m'.steps = m.steps

theorem SameState.sameFrame {m m' : Machine} (h : m.SameState m') : m.SameFrame m' := by
  rw [h]
  exact ⟨⟨rfl, rfl, rfl⟩, rfl, rfl⟩

theorem unbounded_record (m : Machine) (d : RuntimeError) :
    (m.record d).unbounded = m.unbounded.record d := by
  unfold record
  by_cases hroom : m.diagnostics.size < maxDiagnostics
  · rw [if_pos hroom, if_pos (show m.unbounded.diagnostics.size < _ from hroom)]
    rfl
  · rw [if_neg hroom, if_neg (show ¬ m.unbounded.diagnostics.size < _ from hroom)]
    rfl

section Instructions

variable {h : Host σ} {s : σ} {log : List Event} {m : Machine}

theorem report_unbounded (ins : Instruction) (faults : List Fault) :
    ∃ s' log' m', report h.recorded.note ins faults (s, log) m = ((s', log'), m') ∧
      report Host.scribe.note ins faults log m.unbounded = (log', m'.unbounded) ∧
      m.SameState m' := by
  induction faults generalizing s log m with
  | nil => exact ⟨s, log, m, rfl, rfl, rfl⟩
  | cons fault faults ih =>
      let d := RuntimeError.ofFault fault m.pc ins.render
      obtain ⟨s', log', m', hreport, hscribe, hsame⟩ :=
        @ih (h.note s d) (log ++ [.diagnostic d.kind d.detail]) (m.record d)
      refine ⟨s', log', m', hreport, ?_, (sameState_record m d).trans hsame⟩
      rw [unbounded_record] at hscribe
      exact hscribe

theorem evaluate_unbounded (ins : Instruction) :
    ∃ value s' log' m', evaluate h.recorded.note ins (s, log) m = (value, (s', log'), m') ∧
      evaluate Host.scribe.note ins log m.unbounded = (value, log', m'.unbounded) ∧
      m.SameState m' := by
  obtain ⟨s', log', m', hreport, hscribe, hsame⟩ :=
    @report_unbounded _ h s log m ins (ins.expr.eval m.valuation).2
  refine ⟨(ins.expr.eval m.valuation).1, s', log', m', ?_, ?_, hsame⟩
  · simp only [evaluate, hreport]
  · have hvaluation : m.unbounded.valuation = m.valuation := rfl
    simp only [evaluate, hvaluation, hscribe]

/-- An instruction does with any limits and any host what it does without limits. -/
theorem execute_unbounded {perform : Performer (σ × List Event)}
    (haloof : Aloof m.running perform) (ins : Instruction) :
    ∃ s' log' m' next, execute h.recorded.note perform ins (s, log) m = ((s', log'), m', next) ∧
      execute Host.scribe.note (Machine.perform Host.scribe 0 0) ins log m.unbounded =
        (log', m'.unbounded, next) ∧
      m.SameFrame m' := by
  obtain ⟨value, s₁, log₁, m₁, hevaluate, hscribe, hsame⟩ :=
    @evaluate_unbounded _ h s log m ins
  have hframe := hsame.sameFrame
  have hstays : m.SameFrame m := ⟨⟨rfl, rfl, rfl⟩, rfl, rfl⟩
  unfold execute
  cases hcommand : ins.command with
  | assign =>
      simp only [hevaluate, hscribe]
      exact ⟨s₁, log₁, { m₁ with env := m₁.env.set ins.name value }, m.pc + 1, rfl, rfl,
        ⟨hframe.program_eq, hframe.invalid_eq, hframe.running_eq⟩, hframe.limit_eq,
        hframe.steps_eq⟩
  | jump => exact ⟨s, log, m, ins.target.toNat, rfl, rfl, hstays⟩
  | branch =>
      simp only [hevaluate, hscribe]
      exact ⟨s₁, log₁, m₁, _, rfl, rfl, hframe⟩
  | action =>
      simp only [hevaluate, hscribe]
      cases haction : Action.ofCode? ins.action with
      | none => exact ⟨s₁, log₁, m₁, m.pc + 1, rfl, rfl, hframe⟩
      | some a =>
          obtain ⟨s₂, hperform⟩ := haloof s₁ log₁ m₁ a value hframe.running_eq
          simp only [hperform]
          exact ⟨s₂, log₁ ++ [.action a value], m₁, m.pc + 1, rfl, rfl, hframe⟩
  | unset =>
      exact ⟨s, log, { m with env := m.env.erase ins.name }, m.pc + 1, rfl, rfl,
        ⟨rfl, rfl, rfl⟩, rfl, rfl⟩
  | unknown spelling foreign => exact ⟨s, log, m, m.pc + 1, rfl, rfl, hstays⟩

theorem OnCourse.isHalted_stage {program : Program} {env : Env}
    (hm : OnCourse program env log m) :
    (stage program env m.steps).2.isHalted = m.isHalted := by
  rw [← hm]
  rfl

structure Follows (program : Program) (env : Env) (limit : Nat) (log : List Event)
    (m : Machine) : Prop where
  onCourse : OnCourse program env log m
  /-- No stage before has been the last. -/
  going : ∀ n < m.steps, (stage program env n).2.isHalted = false
  valid : m.invalid = none
  limit_eq : m.limit = limit
  within_limit : limit ≠ 0 → m.steps ≤ limit

/-- What an attempt to execute an instruction can do: nothing at the end of the program, nothing at
the limit, and otherwise it goes on to the next stage. -/
theorem stepWith_cases {program : Program} {env : Env} {limit : Nat}
    {perform : Performer (σ × List Event)} (haloof : Aloof m.running perform)
    (hm : Follows program env limit log m) :
    let r := stepWith h.recorded.note perform (s, log) m
    (m.isHalted = true ∧ r = ((s, log), m, .ok false)) ∨
    (m.isHalted = false ∧ limit ≠ 0 ∧ m.steps = limit ∧
      r = ((s, log), m, .error (.stepLimit m.limit m.pc))) ∨
    (m.isHalted = false ∧ ∃ s' log' m', r = ((s', log'), m', .ok (!m'.isHalted)) ∧
      Follows program env limit log' m' ∧ m'.steps = m.steps + 1 ∧ m'.running = m.running) := by
  unfold stepWith
  simp only [hm.valid]
  by_cases hend : m.program.size ≤ m.pc
  · rw [getElem?_neg _ _ (by omega)]
    exact .inl ⟨by simpa [isHalted] using hend, rfl⟩
  have hhalted : m.isHalted = false := by simpa [isHalted] using hend
  obtain ⟨ins, hins⟩ : ∃ ins, m.program[m.pc]? = some ins := ⟨_, getElem?_pos _ _ (by omega)⟩
  simp only [hins]
  by_cases hfull : m.isExhausted = true
  · obtain ⟨hlimit, hle⟩ : limit ≠ 0 ∧ limit ≤ m.steps := by
      simpa [isExhausted, hm.limit_eq] using hfull
    refine .inr (.inl ⟨hhalted, hlimit, ?_, by rw [if_pos hfull]⟩)
    exact Nat.le_antisymm (hm.within_limit hlimit) hle
  · obtain ⟨s', log', m', next, hexecute, hscribe, hframe⟩ :=
      @execute_unbounded _ h s log m perform haloof ins
    have hsteps : (m'.commit next).steps = m.steps + 1 := congrArg (· + 1) hframe.steps_eq
    refine .inr (.inr ⟨hhalted, s', log', m'.commit next, ?_, ⟨?_, ?_, ?_, ?_, ?_⟩, hsteps, ?_⟩)
    · rw [if_neg hfull, hexecute]
    · have hunlimited : m.unbounded.isExhausted = false := by simp [isExhausted, unbounded]
      have hfetch : m.unbounded.program[m.unbounded.pc]? = some ins := hins
      unfold OnCourse
      rw [hsteps, stage, ← hm.onCourse]
      simp only [step, stepWith, show m.unbounded.invalid = none from hm.valid, hfetch,
        hunlimited, hscribe]
      rfl
    · intro n hn
      rcases Nat.lt_succ_iff_lt_or_eq.1 (hsteps ▸ hn) with hn | rfl
      · exact hm.going n hn
      · rw [hm.onCourse.isHalted_stage]
        exact hhalted
    · exact hframe.invalid_eq.trans hm.valid
    · exact hframe.limit_eq.trans hm.limit_eq
    · intro hlimit
      have hroom : m.steps < limit := by simpa [isExhausted, hm.limit_eq, hlimit] using hfull
      rw [hsteps]
      exact hroom
    · exact hframe.running_eq

end Instructions

inductive Ending (h : Host σ) (limit budget : Nat) (m : Machine) (s' : σ) (m' : Machine) :
    Option (Except RunError Unit) → Prop
  | halted : m'.isHalted = true → Ending h limit budget m s' m' (some (.ok ()))
  | limit : m'.isHalted = false → limit ≠ 0 → m'.steps = limit → h.stop s' = none →
      m'.steps < m.steps + budget →
      Ending h limit budget m s' m' (some (.error (.runtime (.stepLimit m'.limit m'.pc))))
  | stopped {cause : Cause} : h.stop s' = some cause →
      Ending h limit budget m s' m' (some (.error (.runtime (.stopped cause m'.timeout m'.pc))))
  | cut : m'.steps = m.steps + budget → Ending h limit budget m s' m' none

theorem Ending.later {h : Host σ} {limit budget : Nat} {m m₁ m' : Machine} {s' : σ}
    {outcome : Option (Except RunError Unit)} (hsteps : m₁.steps = m.steps + 1)
    (hend : Ending h limit budget m₁ s' m' outcome) :
    Ending h limit (budget + 1) m s' m' outcome := by
  cases hend with
  | halted hhalted => exact .halted hhalted
  | limit hhalted hlimit hfull hstop hbudget =>
      exact .limit hhalted hlimit hfull hstop (by omega)
  | stopped hstop => exact .stopped hstop
  | cut hcut => exact .cut (by omega)

section Runs

variable {h : Host σ} {s : σ} {log : List Event} {m : Machine} {program : Program} {env : Env}
  {limit : Nat}

theorem runLoop_ending {perform : Performer (σ × List Event)} (haloof : Aloof true perform)
    (budget : Nat) (hrunning : m.running = true) (hm : Follows program env limit log m) :
    ∃ s' log' m' outcome,
      runLoop h.recorded perform budget (s, log) m = ((s', log'), m', outcome) ∧
      Follows program env limit log' m' ∧ m.steps ≤ m'.steps ∧
      Ending h limit budget m s' m' outcome := by
  induction budget generalizing s log m with
  | zero => exact ⟨s, log, m, none, rfl, hm, Nat.le_refl _, .cut rfl⟩
  | succ budget ih =>
      cases hstop : h.stop s with
      | some cause =>
          refine ⟨s, log, m, _, ?_, hm, Nat.le_refl _, .stopped hstop⟩
          simp only [runLoop, Host.recorded, hstop]
      | none =>
          have hlook : h.recorded.stop (s, log) = none := hstop
          rcases stepWith_cases (h := h) (s := s) (hrunning ▸ haloof) hm with
            ⟨hhalted, hstep⟩ | ⟨hhalted, hlimit, hfull, hstep⟩ |
            ⟨_, s₁, log₁, m₁, hstep, hm₁, hsteps, hrunning₁⟩
          · refine ⟨s, log, m, _, ?_, hm, Nat.le_refl _, .halted hhalted⟩
            simp only [runLoop, hlook, hstep]
          · refine ⟨s, log, m, _, ?_, hm, Nat.le_refl _,
              .limit hhalted hlimit hfull hstop (by omega)⟩
            simp only [runLoop, hlook, hstep]
          · cases hhalted : m₁.isHalted with
            | true =>
                refine ⟨s₁, log₁, m₁, _, ?_, hm₁, by omega, .halted hhalted⟩
                simp only [runLoop, hlook, hstep, hhalted, Bool.not_true]
            | false =>
                obtain ⟨s', log', m', outcome, hloop, hm', hle, hend⟩ :=
                  ih (s := s₁) (hrunning₁.trans hrunning) hm₁
                refine ⟨s', log', m', outcome, ?_, hm', by omega, hend.later hsteps⟩
                simp only [runLoop, hlook, hstep, hhalted, Bool.not_false, hloop]

/-- A run whose host asks for a stop executes nothing. -/
theorem run_of_stop {h : Host σ} {s : σ} {cause : Cause} (hstop : h.stop s = some cause)
    (fuel depth : Nat) (hidle : m.running = false) :
    m.run h (fuel + 1) depth s =
      (s, m, some (.error (.runtime (.stopped cause m.timeout m.pc)))) := by
  have hrest : { m with running := false } = m := by rw [← hidle]
  simp only [run, runWith, hidle, runLoop, hstop]
  exact congrArg (fun m' => (s, m', _)) hrest

theorem run_ending (hsteps : h.NeverSteps) (fuel depth : Nat) (hidle : m.running = false)
    (hm : Follows program env limit log m) :
    ∃ s' log' m' outcome, m.run h.recorded fuel depth (s, log) = ((s', log'), m', outcome) ∧
      Follows program env limit log' m' ∧ m'.running = false ∧ m.steps ≤ m'.steps ∧
      Ending h limit fuel m s' m' outcome := by
  obtain ⟨s', log', m', outcome, hloop, hm', hle, hend⟩ :=
    runLoop_ending (h := h) (s := s) (m := { m with running := true })
      (aloof_perform hsteps (.inl rfl) fuel depth) fuel rfl
      ⟨hm.onCourse, hm.going, hm.valid, hm.limit_eq, hm.within_limit⟩
  refine ⟨s', log', { m' with running := false }, outcome, ?_,
    ⟨hm'.onCourse, hm'.going, hm'.valid, hm'.limit_eq, hm'.within_limit⟩, rfl, hle, ?_⟩
  · simp only [run, runWith, hidle, hloop]
    rfl
  · cases hend with
    | halted hhalted => exact .halted hhalted
    | limit hhalted hlimit hfull hstop hbudget => exact .limit hhalted hlimit hfull hstop hbudget
    | stopped hstop => exact .stopped hstop
    | cut hcut => exact .cut hcut

end Runs

section Nested

variable {h : Host σ} {s : σ} {m : Machine}

theorem perform_of_running (hsteps : h.NeverSteps) (hrunning : m.running = true)
    (fuel depth : Nat) (a : Action) (value : Int64) :
    perform h fuel (depth + 1) s m a value = ((h.refused.act s a value).1, m) := by
  cases hact : h.act s a value with
  | mk s₁ reaction =>
      cases reaction with
      | proceed => simp [perform, Host.refused, hact]
      | step => exact absurd (congrArg Prod.snd hact) (hsteps s a value)
      | run => simp [perform, Host.refused, hact, runWith, hrunning]

theorem perform_refused (hsteps : h.NeverSteps) (fuel depth : Nat) (a : Action)
    (value : Int64) : perform h.refused fuel depth s m a value = ((h.refused.act s a value).1, m) := by
  cases depth with
  | zero => rfl
  | succ depth =>
      cases hact : h.act s a value with
      | mk s₁ reaction =>
          cases reaction with
          | proceed => simp [perform, Host.refused, hact]
          | step => exact absurd (congrArg Prod.snd hact) (hsteps s a value)
          | run => simp [perform, Host.refused, hact]

/-- With a performer that leaves running machines alone, an instruction of a running machine is the
same as with one that leaves all machines alone, and the machine goes on running. -/
theorem execute_of_running (note : Notifier σ) {perform : Performer σ}
    {act : σ → Action → Int64 → σ}
    (hperform : ∀ s m a value, m.running = true → perform s m a value = (act s a value, m))
    (hrunning : m.running = true) (ins : Instruction) :
    execute note perform ins s m = execute note (fun s m a value => (act s a value, m)) ins s m ∧
      (execute note perform ins s m).2.1.running = true := by
  have hreport : (report note ins (ins.expr.eval m.valuation).2 s m).2.running = true := by
    rw [sameState_report note ins (ins.expr.eval m.valuation).2 s m]
    exact hrunning
  unfold execute evaluate
  cases ins.command with
  | assign => exact ⟨rfl, hreport⟩
  | jump => exact ⟨rfl, hrunning⟩
  | branch => exact ⟨rfl, hreport⟩
  | action =>
      cases Action.ofCode? ins.action with
      | none => exact ⟨rfl, hreport⟩
      | some a =>
          simp only [hperform _ _ _ _ hreport]
          exact ⟨trivial, hreport⟩
  | unset => exact ⟨rfl, hrunning⟩
  | unknown spelling foreign => exact ⟨rfl, hrunning⟩

theorem stepWith_of_running (note : Notifier σ) {perform : Performer σ}
    {act : σ → Action → Int64 → σ}
    (hperform : ∀ s m a value, m.running = true → perform s m a value = (act s a value, m))
    (hrunning : m.running = true) :
    stepWith note perform s m = stepWith note (fun s m a value => (act s a value, m)) s m ∧
      (stepWith note perform s m).2.1.running = true := by
  unfold stepWith
  cases m.invalid with
  | some e => exact ⟨rfl, hrunning⟩
  | none =>
      cases m.program[m.pc]? with
      | none => exact ⟨rfl, hrunning⟩
      | some ins =>
          by_cases hfull : m.isExhausted = true
          · simp only [hfull, if_true]
            exact ⟨trivial, hrunning⟩
          · obtain ⟨heq, hgoes⟩ := execute_of_running (s := s) note hperform hrunning ins
            simp only [hfull, ← heq]
            exact ⟨trivial, hgoes⟩

theorem runLoop_of_running {h' : Host σ} (hnote : h'.note = h.note) (hstop : h'.stop = h.stop)
    {perform : Performer σ} {act : σ → Action → Int64 → σ}
    (hperform : ∀ s m a value, m.running = true → perform s m a value = (act s a value, m))
    (hrunning : m.running = true) (budget : Nat) :
    runLoop h perform budget s m =
      runLoop h' (fun s m a value => (act s a value, m)) budget s m := by
  induction budget generalizing s m with
  | zero => rfl
  | succ budget ih =>
      obtain ⟨heq, hgoes⟩ := stepWith_of_running (s := s) h.note hperform hrunning
      simp only [runLoop, hnote, hstop, ← heq]
      cases h.stop s with
      | some cause => rfl
      | none =>
          cases hstep : stepWith h.note perform s m with
          | mk s₁ rest =>
              obtain ⟨m₁, outcome⟩ := rest
              rw [hstep] at hgoes
              cases outcome with
              | error e => rfl
              | ok going =>
                  cases going with
                  | false => rfl
                  | true => exact ih hgoes

/-- A run that the host makes from inside an action of a run fails and changes nothing. -/
theorem run_refused (hsteps : h.NeverSteps) (fuel depth : Nat) (s : σ) (m : Machine) :
    m.run h fuel (depth + 1) s = m.run h.refused fuel depth s := by
  have hcall (s : σ) (m : Machine) (a : Action) (value : Int64) (hm : m.running = true) :=
    perform_of_running (s := s) hsteps hm fuel depth a value
  have hrefused (s : σ) (m : Machine) (a : Action) (value : Int64) (_ : m.running = true) :=
    perform_refused (s := s) (m := m) hsteps fuel depth a value
  have hloop (m : Machine) (hrunning : m.running = true) :
      runLoop h (perform h fuel (depth + 1)) fuel s m =
        runLoop h.refused (perform h.refused fuel depth) fuel s m :=
    (@runLoop_of_running _ h _ _ h.refused rfl rfl _ _ hcall hrunning fuel).trans
      (runLoop_of_running (h := h.refused) rfl rfl hrefused hrunning fuel).symm
  unfold run runWith
  cases m.running with
  | true => rfl
  | false => rw [hloop { m with running := true } rfl]

end Nested

end Machine

structure Resumes (program : Program) (env : Env) (limit : Int) {σ : Type}
    (before after : (σ × List Event) × Machine) : Prop where
  onCourse : after.2.OnCourse program env after.1.2
  forward : before.2.steps ≤ after.2.steps
  within_limit : 0 < limit → (after.2.steps : Int) ≤ limit

namespace Machine

variable {σ : Type} {program : Program} {env : Env} {limit : Int}

structure StepResumes (program : Program) (env : Env) (limit : Int)
    (before : (σ × List Event) × Machine)
    (r : (σ × List Event) × Machine × Except RuntimeError Bool) : Prop
    extends Resumes program env limit before (r.1, r.2.1) where
  limit_iff : (∃ e, r.2.2 = .error e ∧ e.kind = .stepLimitExceeded) ↔
    0 < limit ∧ (before.2.steps : Int) = limit ∧
      (stage program env limit.toNat).2.isHalted = false
  unchanged : ∀ e, r.2.2 = .error e → (r.1, r.2.1) = before

/-- A run is refused exactly at the limit, provided that it is not stopped there. If the program
halts within the limit and nobody stops the run, it succeeds. -/
structure RunResumes (program : Program) (env : Env) (limit : Int) (h : Host σ) (cut : Nat)
    (before : (σ × List Event) × Machine)
    (r : (σ × List Event) × Machine × Option (Except RunError Unit)) : Prop
    extends Resumes program env limit before (r.1, r.2.1) where
  limit_iff : (∃ e, r.2.2 = some (.error (.runtime e)) ∧ e.kind = .stepLimitExceeded) ↔
    (h.stop r.1.1 = none ∧ r.2.1.steps < before.2.steps + cut) ∧
      0 < limit ∧ (r.2.1.steps : Int) = limit ∧
      (stage program env limit.toNat).2.isHalted = false
  halted : r.2.2 = some (.ok ()) → r.2.1.isHalted = true
  succeeds : ∀ n, (stage program env n).2.isHalted = true → (0 < limit → (n : Int) ≤ limit) →
    (∀ s, h.stop s = none) → n < before.2.steps + cut → r.2.2 = some (.ok ())

theorem Follows.start (hvalid : program.invalid? = none) (timeout : Duration) :
    Follows program env limit.toNat [] { Machine.new program limit timeout with env } := by
  refine ⟨?_, ?_, ?_, rfl, ?_⟩
  · rfl
  · intro n hn
    exact absurd hn (Nat.not_lt_zero n)
  · simp [Machine.new, hvalid]
  · intro _
    exact Nat.zero_le _

theorem Follows.resumes {before after : (σ × List Event) × Machine}
    (hafter : Follows program env limit.toNat after.1.2 after.2)
    (hle : before.2.steps ≤ after.2.steps) : Resumes program env limit before after := by
  refine ⟨hafter.onCourse, hle, ?_⟩
  intro hlimit
  have hwithin := hafter.within_limit (by omega)
  omega

section Calls

variable {h : Host σ} {s : σ} {log : List Event} {m : Machine}

/-- Whether the program goes on at the limit can be read off a machine that has reached it. -/
theorem Follows.isHalted_limit (hm : Follows program env limit.toNat log m)
    (hfull : (m.steps : Int) = limit) :
    (stage program env limit.toNat).2.isHalted = m.isHalted := by
  rw [show limit.toNat = m.steps by omega]
  exact hm.onCourse.isHalted_stage

theorem Follows.steps_le (hm : Follows program env limit.toNat log m) {n : Nat}
    (hn : (stage program env n).2.isHalted = true) : m.steps ≤ n := by
  rcases Nat.lt_or_ge n m.steps with hlt | hge
  · rw [hm.going n hlt] at hn
    exact absurd hn (by decide)
  · exact hge

theorem kind_stopped_ne (cause : Cause) (timeout : Duration) (pc : Int) :
    (RuntimeError.stopped cause timeout pc).kind ≠ .stepLimitExceeded := by
  unfold RuntimeError.stopped
  split <;> simp

theorem step_resumes (hsteps : h.NeverSteps) (hruns : h.NeverRuns) (fuel depth : Nat)
    (hm : Follows program env limit.toNat log m) :
    ∃ s' log' m' outcome, m.step h.recorded fuel depth (s, log) = ((s', log'), m', outcome) ∧
      Follows program env limit.toNat log' m' ∧ m'.running = m.running ∧
      StepResumes program env limit ((s, log), m) ((s', log'), m', outcome) := by
  have hstays : Resumes program env limit ((s, log), m) ((s, log), m) :=
    Follows.resumes hm (Nat.le_refl _)
  rcases stepWith_cases (h := h) (s := s) (aloof_perform hsteps (.inr hruns) fuel depth) hm with
    ⟨hhalted, hstep⟩ | ⟨hhalted, hlimit, hfull, hstep⟩ |
    ⟨hhalted, s', log', m', hstep, hm', hnext, hrunning⟩
  · refine ⟨s, log, m, .ok false, hstep, hm, rfl, hstays, iff_of_false ?_ ?_, ?_⟩
    · simp
    · rintro ⟨_, hfull, hgoes⟩
      rw [hm.isHalted_limit hfull, hhalted] at hgoes
      exact absurd hgoes (by decide)
    · intro e he
      simp at he
  · have hat : (m.steps : Int) = limit := by omega
    refine ⟨s, log, m, _, hstep, hm, rfl, hstays, iff_of_true ⟨_, rfl, rfl⟩ ?_, fun e _ => rfl⟩
    exact ⟨by omega, hat, (hm.isHalted_limit hat).trans hhalted⟩
  · refine ⟨s', log', m', .ok (!m'.isHalted), hstep, hm', hrunning,
      Follows.resumes hm' (by simp [hnext]), iff_of_false ?_ ?_, ?_⟩
    · simp
    · rintro ⟨hlimit, hfull, _⟩
      have hwithin := hm'.within_limit (by omega)
      have hat : (m.steps : Int) = limit := hfull
      omega
    · intro e he
      simp at he

theorem runUntil_resumes (hsteps : h.NeverSteps) (depth cut : Nat) (cause : Cause)
    (hidle : m.running = false) (hm : Follows program env limit.toNat log m) :
    ∃ s' log' m' outcome,
      m.runUntil h.recorded depth cut cause (s, log) = ((s', log'), m', outcome) ∧
      Follows program env limit.toNat log' m' ∧ m'.running = false ∧
      RunResumes program env limit h cut ((s, log), m) ((s', log'), m', outcome) := by
  obtain ⟨s', log', m', ending, hrun, hm', hidle', hle, hend⟩ :=
    run_ending (s := s) hsteps cut depth hidle hm
  have hresumes : Resumes program env limit ((s, log), m) ((s', log'), m') :=
    Follows.resumes hm' hle
  unfold runUntil
  rw [hrun]
  cases hend with
  | halted hhalted =>
      refine ⟨s', log', m', some (.ok ()), rfl, hm', hidle', hresumes, iff_of_false ?_ ?_,
        fun _ => hhalted, fun _ _ _ _ _ => rfl⟩
      · simp
      · rintro ⟨_, _, hfull, hgoes⟩
        rw [hm'.isHalted_limit hfull, hhalted] at hgoes
        exact absurd hgoes (by decide)
  | limit hhalted hlimit hfull hstop hbudget =>
      have hat : (m'.steps : Int) = limit := by omega
      refine ⟨s', log', m', _, rfl, hm', hidle', hresumes, iff_of_true ⟨_, rfl, rfl⟩ ?_, ?_, ?_⟩
      · exact ⟨⟨hstop, hbudget⟩, by omega, hat, (hm'.isHalted_limit hat).trans hhalted⟩
      · intro hok
        simp at hok
      · intro n hn hwithin _ _
        have hle := hm'.steps_le hn
        have hbound := hwithin (by omega)
        obtain rfl : n = m'.steps := by omega
        rw [hm'.onCourse.isHalted_stage, hhalted] at hn
        exact absurd hn (by decide)
  | stopped hstop =>
      refine ⟨s', log', m', _, rfl, hm', hidle', hresumes, iff_of_false ?_ ?_, ?_, ?_⟩
      · rintro ⟨e, he, hkind⟩
        simp only [Option.some.injEq, Except.error.injEq, RunError.runtime.injEq] at he
        exact kind_stopped_ne _ _ _ (he ▸ hkind)
      · rintro ⟨⟨hnone, _⟩, _⟩
        simp [hstop] at hnone
      · intro hok
        simp at hok
      · intro _ _ _ hnever _
        simp [hnever s'] at hstop
  | cut hcut =>
      refine ⟨s', log', m', _, run_of_stop rfl 0 depth hidle', hm', hidle', hresumes,
        iff_of_false ?_ ?_, ?_, ?_⟩
      · rintro ⟨e, he, hkind⟩
        simp only [Option.some.injEq, Except.error.injEq, RunError.runtime.injEq] at he
        exact kind_stopped_ne _ _ _ (he ▸ hkind)
      · rintro ⟨⟨_, hbudget⟩, _⟩
        simp only at hbudget
        omega
      · intro hok
        simp at hok
      · intro n hn _ _ hlong
        have hle := hm'.steps_le hn
        simp only at hlong
        omega

theorem make_follows (fuel depth : Nat) {c : Call σ} (hc : c.Allowed)
    {r : (σ × List Event) × Machine} (hidle : r.2.running = false)
    (hr : Follows program env limit.toNat r.1.2 r.2) :
    (c.make fuel depth r).2.running = false ∧
      Follows program env limit.toNat (c.make fuel depth r).1.2 (c.make fuel depth r).2 := by
  obtain ⟨⟨s, log⟩, m⟩ := r
  cases c with
  | step h =>
      obtain ⟨s', log', m', outcome, hstep, hm', hrunning, _⟩ :=
        step_resumes (s := s) hc.1 hc.2 fuel depth hr
      simp only [Call.make, hstep]
      exact ⟨hrunning.trans hidle, hm'⟩
  | run h cut cause =>
      obtain ⟨s', log', m', outcome, hrun, hm', hidle', _⟩ :=
        runUntil_resumes (s := s) hc depth cut cause hidle hr
      simp only [Call.make, hrun]
      exact ⟨hidle', hm'⟩

/-- Whatever calls have been made, the machine follows its stages and is at rest. -/
theorem makeAll_follows (fuel depth : Nat) {calls : List (Call σ)}
    (hcalls : ∀ c ∈ calls, c.Allowed) {r : (σ × List Event) × Machine}
    (hidle : r.2.running = false) (hr : Follows program env limit.toNat r.1.2 r.2) :
    (Call.makeAll fuel depth r calls).2.running = false ∧
      Follows program env limit.toNat (Call.makeAll fuel depth r calls).1.2
        (Call.makeAll fuel depth r calls).2 := by
  induction calls generalizing r with
  | nil => exact ⟨hidle, hr⟩
  | cons c calls ih =>
      obtain ⟨hc, hrest⟩ := List.forall_mem_cons.1 hcalls
      obtain ⟨hidle', hr'⟩ := make_follows fuel depth hc hidle hr
      exact ih hrest hidle' hr'

end Calls

end Machine

/-- Stopping and resuming never changes the computation. After any calls, with any limit and stopped
at any looks, the machine is at the stage that its number of steps says, and so it is after one more
step or run, which never goes back. An attempt to execute an instruction is refused exactly if the
number of steps is the limit and that stage is not the last. A run that a host makes from inside an
action of a run fails and changes nothing: it is as if the host had heard of the failure at once. -/
theorem interruptions_keep_course {program : Program} (hvalid : program.invalid? = none)
    (env : Env) (limit : Int) (timeout : Duration) {σ : Type} (s₀ : σ) (fuel depth : Nat)
    (calls : List (Call σ)) (hcalls : ∀ c ∈ calls, c.Allowed) :
    let start := ((s₀, []), { Machine.new program limit timeout with env })
    let before := Call.makeAll fuel depth start calls
    Resumes program env limit start before ∧
    (∀ h : Host σ, h.NeverSteps → h.NeverRuns →
      Machine.StepResumes program env limit before
        (before.2.step h.recorded fuel depth before.1)) ∧
    (∀ h : Host σ, h.NeverSteps → ∀ cut cause,
      Machine.RunResumes program env limit h cut before
        (before.2.runUntil h.recorded depth cut cause before.1)) ∧
    ∀ h : Host σ, h.NeverSteps → ∀ s (m : Machine),
      m.run h fuel (depth + 1) s = m.run h.refused fuel depth s := by
  intro start before
  obtain ⟨hidle, hbefore⟩ : before.2.running = false ∧
      Machine.Follows program env limit.toNat before.1.2 before.2 :=
    Machine.makeAll_follows fuel depth hcalls rfl (Machine.Follows.start hvalid timeout)
  refine ⟨hbefore.resumes (Nat.zero_le _), ?_, ?_, ?_⟩
  · intro h hsteps hruns
    obtain ⟨s', log', m', outcome, hstep, _, _, hresumes⟩ :=
      Machine.step_resumes (s := before.1.1) hsteps hruns fuel depth hbefore
    rw [hstep]
    exact hresumes
  · intro h hsteps cut cause
    obtain ⟨s', log', m', outcome, hrun, _, _, hresumes⟩ :=
      Machine.runUntil_resumes (s := before.1.1) hsteps depth cut cause hidle hbefore
    rw [hrun]
    exact hresumes
  · intro h hsteps s m
    exact Machine.run_refused hsteps fuel depth s m

/-- A run with a limit of one instruction is stopped behind it, though its host makes a run there.
The limit refuses the next. -/
theorem stopped_run_is_refused :
    let program : Program := #[.act .move (.literal 1), .act .turn (.literal 90)]
    let caller : Host Unit := { act := fun s _ _ => (s, .run) }
    let before := Call.makeAll 0 1 (((), []), { Machine.new program 1 .zero with env := {} })
      [.run caller 1 .deadline]
    before.1.2 = [.action .move 1] ∧ before.2.OnCourse program {} before.1.2 ∧
      ∃ e, (before.2.runUntil caller.recorded 1 2 .deadline before.1).2.2 =
          some (.error (.runtime e)) ∧ e.kind = .stepLimitExceeded := by
  intro program caller before
  have hvalid : program.invalid? = none := rfl
  have hcaller : caller.NeverSteps := fun _ _ _ => by simp [caller]
  have hcalls : ∀ c ∈ [Call.run caller 1 .deadline], c.Allowed := by
    simpa [Call.Allowed] using hcaller
  obtain ⟨hlog, hsteps⟩ : before.1.2 = [.action .move 1] ∧ before.2.steps = 1 := ⟨rfl, rfl⟩
  have hgoes : (Machine.stage program {} 1).2.isHalted = false := rfl
  obtain ⟨hresumes, _, hrun, _⟩ : _ ∧ _ ∧ (∀ h : Host Unit, h.NeverSteps → ∀ cut cause,
      Machine.RunResumes program {} 1 h cut before
        (before.2.runUntil h.recorded 1 cut cause before.1)) ∧ _ :=
    interruptions_keep_course hvalid {} 1 .zero () 0 1 _ hcalls
  have hcourse : before.2.OnCourse program {} before.1.2 := hresumes.onCourse
  -- What the second run does is not evaluated: it can only stay at the limit.
  clear_value before
  have hrefused := hrun caller hcaller 2 .deadline
  have hlow := hrefused.forward
  have hhigh := hrefused.within_limit (by decide)
  simp only at hlow hhigh
  exact ⟨hlog, hcourse,
    hrefused.limit_iff.2 ⟨⟨rfl, by omega⟩, by decide, by omega, hgoes⟩⟩

/-- A host that never steps the machine but makes a run from inside a single step: the action is
performed twice, and the step counts on behind the end of the program. -/
theorem run_inside_step_repeats_action :
    let program : Program := #[.act .move (.literal 1)]
    let caller : Host Nat := { act := fun n _ _ => (n + 1, if n = 0 then .run else .proceed) }
    let after := Call.make 9 9 ((0, []), { Machine.new program 0 .zero with env := {} })
      (.step caller)
    program.invalid? = none ∧ caller.NeverSteps ∧
      after.1.2 = [.action .move 1, .action .move 1] ∧ after.2.steps = 2 ∧
      ¬ after.2.OnCourse program {} after.1.2 := by
  intro program caller after
  refine ⟨rfl, ?_, rfl, rfl, ?_⟩
  · intro n a value
    by_cases hn : n = 0 <;> simp [caller, hn]
  · intro hcourse
    have hlog : [Event.action .move 1, .action .move 1] = [.action .move 1] :=
      congrArg Prod.fst hcourse
    exact absurd (congrArg List.length hlog) (by decide)

end Tortoise
