import Tortoise.Machine.Host
import Tortoise.Proofs.Machine.Meaning

/-!
# Runs with a quiet host

A quiet host performs actions and neither calls the machine back nor asks for a stop. With such a
host a step depends on where the machine stands and on its variables only, so that a run is the
iteration of one function on snapshots: place, variables and the events so far.
-/

namespace Tortoise

namespace Host

variable {σ : Type}

structure Quiet (h : Host σ) : Prop where
  act : ∀ s a value, (h.act s a value).2 = .proceed
  stop : ∀ s, h.stop s = none

structure Logs (h : Host σ) (log : σ → List Event) : Prop where
  act : ∀ s a value, log (h.act s a value).1 = log s ++ [.action a value]
  note : ∀ s d, log (h.note s d) = log s ++ [.diagnostic d.kind d.detail]

def recorded (h : Host σ) : Host (σ × List Event) where
  act := fun (s, log) a value =>
    (((h.act s a value).1, log ++ [.action a value]), (h.act s a value).2)
  note := fun (s, log) d => (h.note s d, log ++ [.diagnostic d.kind d.detail])
  stepped := fun (s, log) outcome => (h.stepped s outcome, log)
  ran := fun (s, log) outcome => (h.ran s outcome, log)
  stop := fun (s, _) => h.stop s

theorem logs_recorded (h : Host σ) : h.recorded.Logs Prod.snd :=
  ⟨fun _ _ _ => rfl, fun _ _ => rfl⟩

theorem Quiet.recorded {h : Host σ} (hq : h.Quiet) : h.recorded.Quiet :=
  ⟨fun s a value => hq.act s.1 a value, fun s => hq.stop s.1⟩

theorem Quiet.perform_eq {h : Host σ} (hq : h.Quiet) (fuel depth : Nat) (s : σ) (m : Machine)
    (a : Action) (value : Int64) :
    Machine.perform h fuel depth s m a value = ((h.act s a value).1, m) := by
  cases depth with
  | zero => rfl
  | succ depth =>
      have hact := hq.act s a value
      unfold Machine.perform
      split
      next heq => rw [heq]
      next heq => rw [heq] at hact; simp at hact
      next heq => rw [heq] at hact; simp at hact

end Host

structure Snapshot where
  pc : Nat
  env : Env
  log : List Event

namespace Snapshot

def after (ins : Instruction) (x : Snapshot) : Snapshot :=
  let (value, faults) := ins.expr.eval x.env.get?
  let log := x.log ++ faults.map Fault.event
  match ins.command with
  | .assign => ⟨x.pc + 1, x.env.set ins.name value, log⟩
  | .jump => ⟨ins.target.toNat, x.env, x.log⟩
  | .branch => ⟨if value != 0 then ins.onTrue.toNat else ins.onFalse.toNat, x.env, log⟩
  | .action =>
    match Action.ofCode? ins.action with
    | some a => ⟨x.pc + 1, x.env, log ++ [.action a value]⟩
    | none => ⟨x.pc + 1, x.env, log⟩
  | .unset => ⟨x.pc + 1, x.env.erase ins.name, x.log⟩
  | .unknown _ _ => ⟨x.pc + 1, x.env, x.log⟩

def next (program : Program) (x : Snapshot) : Snapshot :=
  match program[x.pc]? with
  | none => x
  | some ins => x.after ins

def go (program : Program) : Nat → Snapshot → Snapshot
  | 0, x => x
  | n + 1, x => go program n (x.next program)

variable {program : Program} {x : Snapshot}

theorem go_add (m n : Nat) : go program (m + n) x = go program n (go program m x) := by
  induction m generalizing x with
  | zero => rw [Nat.zero_add, go]
  | succ m ih => rw [Nat.add_right_comm, go, go, ih]

theorem next_of_halted (h : program.size ≤ x.pc) : x.next program = x := by
  simp [next, h]

theorem go_of_halted (h : program.size ≤ x.pc) (n : Nat) : go program n x = x := by
  induction n with
  | zero => rfl
  | succ n ih => rw [go, next_of_halted h, ih]

theorem log_prefix_next : x.log <+: (x.next program).log := by
  unfold next
  split
  · exact List.prefix_refl _
  · unfold after
    simp only
    split
    · exact List.prefix_append _ _
    · exact List.prefix_refl _
    · exact List.prefix_append _ _
    · split
      · exact (List.prefix_append _ _).trans (List.prefix_append _ _)
      · exact List.prefix_append _ _
    · exact List.prefix_refl _
    · exact List.prefix_refl _

theorem log_prefix_go (n : Nat) : x.log <+: (go program n x).log := by
  induction n generalizing x with
  | zero => exact List.prefix_refl _
  | succ n ih => exact log_prefix_next.trans ih

end Snapshot

def Event.isDiagnostic : Event → Bool
  | .diagnostic _ _ => true
  | .action _ _ => false

def diagnosticsOf (log : List Event) : List Event := log.filter Event.isDiagnostic

def RuntimeError.event (d : RuntimeError) : Event := .diagnostic d.kind d.detail

theorem event_ofFault (fault : Fault) (pc : Int) (context : Text) :
    (RuntimeError.ofFault fault pc context).event = fault.event := by
  cases fault <;> rfl

namespace Machine

structure Tells (m : Machine) (log : List Event) : Prop where
  recorded : m.diagnostics.toList.map RuntimeError.event = (diagnosticsOf log).take maxDiagnostics
  counted : m.diagnosticCount = (diagnosticsOf log).length

theorem Tells.record {m : Machine} {log : List Event} (h : m.Tells log) (d : RuntimeError) :
    (m.record d).Tells (log ++ [d.event]) := by
  have hlog : diagnosticsOf (log ++ [d.event]) = diagnosticsOf log ++ [d.event] := by
    simp [diagnosticsOf, RuntimeError.event, Event.isDiagnostic]
  have hsize : m.diagnostics.size = min maxDiagnostics (diagnosticsOf log).length := by
    have hlen := congrArg List.length h.recorded
    rwa [List.length_map, List.length_take, Array.length_toList] at hlen
  have hcount := h.counted
  unfold Machine.record
  unfold diagnosticCount at hcount
  split
  next hroom =>
    have hshort : (diagnosticsOf log).length < maxDiagnostics := by omega
    refine ⟨?_, ?_⟩
    · rw [Array.toList_push, List.map_append, h.recorded, hlog,
        List.take_of_length_le (by omega), List.take_of_length_le]
      · rfl
      · rw [List.length_append, List.length_singleton]
        omega
    · simp only [diagnosticCount, Array.size_push, hlog, List.length_append, List.length_singleton]
      omega
  next hfull =>
    have hlong : maxDiagnostics ≤ (diagnosticsOf log).length := by omega
    refine ⟨?_, ?_⟩
    · rw [h.recorded, hlog, List.take_append_of_le_length hlong]
    · simp only [diagnosticCount, hlog, List.length_append, List.length_singleton]
      omega

theorem Tells.action {m : Machine} {log : List Event} (h : m.Tells log) (a : Action)
    (value : Int64) : m.Tells (log ++ [.action a value]) := by
  have hlog : diagnosticsOf (log ++ [.action a value]) = diagnosticsOf log := by
    simp [diagnosticsOf, Event.isDiagnostic]
  exact ⟨hlog ▸ h.recorded, hlog ▸ h.counted⟩

def SameState (m m' : Machine) : Prop :=
  m' = { m with diagnostics := m'.diagnostics, dropped := m'.dropped }

theorem sameState_record (m : Machine) (d : RuntimeError) : m.SameState (m.record d) := by
  unfold record SameState
  split <;> rfl

theorem SameState.trans {m m' m'' : Machine} (h : m.SameState m') (h' : m'.SameState m'') :
    m.SameState m'' := by
  unfold SameState at *
  rw [h'] at *
  rw [h]

variable {σ : Type}

/-- The machine executes a program without a limit, and it and the log of its host stand as the
snapshot shows. -/
structure Shows (program : Program) (log : List Event) (m : Machine) (x : Snapshot) : Prop where
  program_eq : m.program = program
  valid : m.invalid = none
  unlimited : m.limit = 0
  pc_eq : m.pc = x.pc
  env_eq : m.env = x.env
  log_eq : log = x.log
  tells : m.Tells x.log

section Steps

variable {h : Host σ} {log : σ → List Event} {program : Program} {s : σ} {m : Machine}
  {x : Snapshot}

theorem report_shows (hlogs : h.Logs log) (ins : Instruction) (faults : List Fault)
    (hshows : Shows program (log s) m x) :
    Shows program (log (report h.note ins faults s m).1) (report h.note ins faults s m).2
      { x with log := x.log ++ faults.map Fault.event } := by
  induction faults generalizing s m x with
  | nil => simpa [report] using hshows
  | cons fault faults ih =>
      let d := RuntimeError.ofFault fault m.pc ins.render
      have hevent : d.event = fault.event := event_ofFault fault _ _
      have hstep : Shows program (log (h.note s d)) (m.record d)
          { x with log := x.log ++ [fault.event] } := by
        have htells := hshows.tells.record d
        have hsame := sameState_record m d
        rw [hevent] at htells
        refine ⟨?_, ?_, ?_, ?_, ?_, ?_, htells⟩
        · rw [hsame]; exact hshows.program_eq
        · rw [hsame]; exact hshows.valid
        · rw [hsame]; exact hshows.unlimited
        · rw [hsame]; exact hshows.pc_eq
        · rw [hsame]; exact hshows.env_eq
        · rw [hlogs.note, hshows.log_eq, ← hevent]; rfl
      have hrest := ih hstep
      rw [List.append_assoc, List.singleton_append] at hrest
      exact hrest

theorem evaluate_shows (hlogs : h.Logs log) (ins : Instruction)
    (hshows : Shows program (log s) m x) :
    ∃ s' m', evaluate h.note ins s m = ((ins.expr.eval x.env.get?).1, s', m') ∧
      Shows program (log s') m'
        { x with log := x.log ++ (ins.expr.eval x.env.get?).2.map Fault.event } := by
  have heval : ins.expr.eval m.valuation = ins.expr.eval x.env.get? := by
    rw [valuation, hshows.env_eq]
  refine ⟨_, _, ?_, report_shows hlogs ins (ins.expr.eval x.env.get?).2 hshows⟩
  simp only [evaluate, heval]

theorem Shows.commit {log : List Event} (hshows : Shows program log m x) (env : Env) {env' : Env}
    (henv : env = env') (next : Nat) :
    Shows program log ({ m with env }.commit next) ⟨next, env', x.log⟩ :=
  ⟨hshows.program_eq, hshows.valid, hshows.unlimited, rfl, henv, hshows.log_eq,
    ⟨hshows.tells.recorded, hshows.tells.counted⟩⟩

/-- The snapshot after an instruction is that of the machine that has completed it. -/
theorem execute_shows (hq : h.Quiet) (hlogs : h.Logs log) (fuel depth : Nat) (ins : Instruction)
    (hshows : Shows program (log s) m x) :
    ∃ s' m' next, execute h.note (perform h fuel depth) ins s m = (s', m', next) ∧
      Shows program (log s') (m'.commit next) (x.after ins) := by
  obtain ⟨s', m', heval, hafter⟩ := evaluate_shows hlogs ins hshows
  have hpc := hshows.pc_eq
  unfold execute Snapshot.after
  rw [hpc]
  cases hcommand : ins.command with
  | assign =>
      simp only [heval]
      refine ⟨_, _, _, rfl, hafter.commit _ ?_ _⟩
      rw [hafter.env_eq]
  | jump => exact ⟨s, m, _, rfl, hshows.commit m.env hshows.env_eq _⟩
  | branch =>
      simp only [heval]
      exact ⟨_, _, _, rfl, hafter.commit m'.env hafter.env_eq _⟩
  | action =>
      simp only [heval]
      cases haction : Action.ofCode? ins.action with
      | none => exact ⟨_, _, _, rfl, hafter.commit m'.env hafter.env_eq _⟩
      | some a =>
          have hdone : Shows program (log (h.act s' a (ins.expr.eval x.env.get?).1).1) m'
              { x with log := x.log ++ (ins.expr.eval x.env.get?).2.map Fault.event ++
                [.action a (ins.expr.eval x.env.get?).1] } := by
            refine { hafter with log_eq := ?_, tells := hafter.tells.action a _ }
            rw [hlogs.act, hafter.log_eq]
          simp only [hq.perform_eq]
          exact ⟨_, _, _, rfl, hdone.commit m'.env hafter.env_eq _⟩
  | unset =>
      refine ⟨s, _, _, rfl, hshows.commit _ ?_ _⟩
      rw [hshows.env_eq]
  | unknown spelling foreign => exact ⟨s, m, _, rfl, hshows.commit m.env hshows.env_eq _⟩

theorem isHalted_iff {log : List Event} (hshows : Shows program log m x) :
    m.isHalted = decide (program.size ≤ x.pc) := by
  rw [isHalted, hshows.program_eq, hshows.pc_eq]

theorem stepWith_shows (hq : h.Quiet) (hlogs : h.Logs log) (fuel depth : Nat)
    (hshows : Shows program (log s) m x) :
    ∃ s' m', stepWith h.note (perform h fuel depth) s m = (s', m', .ok (!m'.isHalted)) ∧
      Shows program (log s') m' (x.next program) := by
  unfold stepWith Snapshot.next
  simp only [hshows.valid, hshows.program_eq, hshows.pc_eq]
  cases hins : program[x.pc]? with
  | none =>
      have hhalted : m.isHalted = true := by
        rw [isHalted_iff hshows]
        simpa using hins
      exact ⟨s, m, by simp [hhalted], hshows⟩
  | some ins =>
      have hgo : m.isExhausted = false := by simp [isExhausted, hshows.unlimited]
      obtain ⟨s', m', next, hexecute, hafter⟩ := execute_shows hq hlogs fuel depth ins hshows
      simp only [hgo, hexecute]
      exact ⟨s', m'.commit next, rfl, hafter⟩

/-- The loop of a run goes through the snapshots with everything that a step of it keeps. -/
theorem runLoop_keeps {perform : Performer σ} {R : σ → Machine → Snapshot → Prop}
    (hstop : ∀ s, h.stop s = none)
    (hhalted : ∀ {s m x}, R s m x → m.isHalted = decide (program.size ≤ x.pc))
    (hstep : ∀ {s m x}, R s m x → ∃ s' m',
      stepWith h.note perform s m = (s', m', .ok (!m'.isHalted)) ∧ R s' m' (x.next program))
    (budget : Nat) (hm : R s m x) :
    ∃ s' m', runLoop h perform budget s m =
        (s', m', if budget ≠ 0 ∧ m'.isHalted = true then some (.ok ()) else none) ∧
      R s' m' (x.go program budget) := by
  induction budget generalizing s m x with
  | zero => exact ⟨s, m, by simp [runLoop], hm⟩
  | succ budget ih =>
      obtain ⟨s₁, m₁, hstep₁, hm₁⟩ := hstep hm
      simp only [runLoop, hstop, hstep₁]
      cases hend : m₁.isHalted with
      | true =>
          refine ⟨s₁, m₁, by simp [hend], ?_⟩
          have hsize : program.size ≤ (x.next program).pc := by
            simpa [hhalted hm₁] using hend
          rw [Snapshot.go, Snapshot.go_of_halted hsize]
          exact hm₁
      | false =>
          obtain ⟨s₂, m₂, hrun, hm₂⟩ := ih hm₁
          refine ⟨s₂, m₂, ?_, hm₂⟩
          simp only [Bool.not_false, hrun]
          cases budget with
          | zero =>
              have hstay : m₂.isHalted = false := by
                rw [hhalted hm₂, Snapshot.go, ← hhalted hm₁, hend]
              simp [hstay]
          | succ budget => simp

theorem runLoop_shows (hq : h.Quiet) (hlogs : h.Logs log) (fuel depth budget : Nat)
    (hshows : Shows program (log s) m x) :
    ∃ s' m', runLoop h (perform h fuel depth) budget s m =
        (s', m', if budget ≠ 0 ∧ m'.isHalted = true then some (.ok ()) else none) ∧
      Shows program (log s') m' (x.go program budget) :=
  runLoop_keeps (R := fun s m x => Shows program (log s) m x) hq.stop isHalted_iff
    (stepWith_shows hq hlogs fuel depth) budget hshows

/-- A run with a quiet host is the iteration of snapshots. -/
theorem run_shows (hq : h.Quiet) (hlogs : h.Logs log) (fuel depth : Nat)
    (hidle : m.running = false) (hshows : Shows program (log s) m x) :
    ∃ s' m', m.run h fuel depth s =
        (s', m', if fuel ≠ 0 ∧ m'.isHalted = true then some (.ok ()) else none) ∧
      Shows program (log s') m' (x.go program fuel) := by
  have hrunning : Shows program (log s) { m with running := true } x :=
    { hshows with tells := ⟨hshows.tells.recorded, hshows.tells.counted⟩ }
  obtain ⟨s', m', hloop, hafter⟩ := runLoop_shows hq hlogs fuel depth fuel hrunning
  refine ⟨s', { m' with running := false }, ?_, ?_⟩
  · simp only [run, runWith, hidle, hloop]
    rfl
  · exact { hafter with tells := ⟨hafter.tells.recorded, hafter.tells.counted⟩ }

end Steps

section Recording

variable {h : Host σ}

def unlogged {α : Type} (r : (σ × List Event) × α) : σ × α := (r.1.1, r.2)

theorem unlogged_report (ins : Instruction) (faults : List Fault) (s : σ × List Event)
    (m : Machine) :
    unlogged (report h.recorded.note ins faults s m) = report h.note ins faults s.1 m := by
  induction faults generalizing s m with
  | nil => rfl
  | cons fault faults ih => exact ih _ _

theorem unlogged_execute (hq : h.Quiet) (fuel depth : Nat) (ins : Instruction)
    (s : σ × List Event) (m : Machine) :
    unlogged (execute h.recorded.note (perform h.recorded fuel depth) ins s m) =
      execute h.note (perform h fuel depth) ins s.1 m := by
  unfold execute evaluate
  cases ins.command with
  | action =>
      cases haction : Action.ofCode? ins.action with
      | none => simp only [← unlogged_report]; rfl
      | some a => simp only [← unlogged_report, hq.perform_eq, hq.recorded.perform_eq]; rfl
  | _ => simp only [← unlogged_report]; rfl

theorem unlogged_stepWith (hq : h.Quiet) (fuel depth : Nat) (s : σ × List Event) (m : Machine) :
    unlogged (stepWith h.recorded.note (perform h.recorded fuel depth) s m) =
      stepWith h.note (perform h fuel depth) s.1 m := by
  unfold stepWith
  cases m.invalid with
  | some e => rfl
  | none =>
      cases m.program[m.pc]? with
      | none => rfl
      | some ins =>
          by_cases hlimit : m.isExhausted = true
          · simp [hlimit, unlogged]
          · simp only [hlimit, ← unlogged_execute hq]
            rfl

theorem unlogged_runLoop (hq : h.Quiet) (fuel depth budget : Nat) (s : σ × List Event)
    (m : Machine) :
    unlogged (runLoop h.recorded (perform h.recorded fuel depth) budget s m) =
      runLoop h (perform h fuel depth) budget s.1 m := by
  induction budget generalizing s m with
  | zero => rfl
  | succ budget ih =>
      have hstep := unlogged_stepWith hq fuel depth s m
      simp only [runLoop, hq.stop, hq.recorded.stop]
      rw [← hstep]
      obtain ⟨s', m', outcome⟩ := stepWith h.recorded.note (perform h.recorded fuel depth) s m
      cases outcome with
      | error e => rfl
      | ok going =>
          cases going with
          | true => exact ih s' m'
          | false => rfl

theorem unlogged_run (hq : h.Quiet) (fuel depth : Nat) (s : σ × List Event) (m : Machine) :
    unlogged (m.run h.recorded fuel depth s) = m.run h fuel depth s.1 := by
  unfold run runWith
  cases m.running with
  | true => rfl
  | false =>
      rw [← unlogged_runLoop hq]
      rfl

end Recording

end Machine

end Tortoise
