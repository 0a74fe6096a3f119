import Tortoise.Proofs.Machine.Interruption

/-!
# Diagnostics are the first reports

A machine keeps its first diagnostics and counts the others. Beside it stands a machine that keeps
none: it executes the same instructions, and all reports of its evaluations are listed apart, in the
order in which they are raised and without a bound. Whatever is done with the two machines, the host
and the machine are the same in both cases, and the diagnostics are the beginning of the list.

This holds for every host, also for one that steps or runs the machine from inside an action. An
instruction may raise many reports, so that the bound may be reached in the middle of one.
-/

namespace Tortoise

structure FaultReport where
  fault : Fault
  pc : Nat
  listing : Text

namespace FaultReport

def diagnostic (r : FaultReport) : RuntimeError := .ofFault r.fault r.pc r.listing

theorem isFatal_diagnostic (r : FaultReport) : r.diagnostic.isFatal = false := by
  unfold diagnostic
  cases r.fault <;> rfl

end FaultReport

namespace Machine

variable {σ : Type}

abbrev Reported (σ : Type) := σ × List FaultReport

def reportOf (m : Machine) (ins : Instruction) (fault : Fault) : FaultReport :=
  ⟨fault, m.pc, ins.render⟩

def reports (m : Machine) (ins : Instruction) : List FaultReport :=
  (ins.expr.eval m.valuation).2.map (m.reportOf ins)

namespace Unrecorded

/-- The value of the expression of an instruction. The host hears of each report, and all of them
are added to the list. -/
def evaluate (note : Notifier σ) (ins : Instruction) (r : Reported σ) (m : Machine) :
    Int64 × Reported σ :=
  ((ins.expr.eval m.valuation).1,
   (m.reports ins).foldl (fun s report => note s report.diagnostic) r.1, r.2 ++ m.reports ins)

def execute (note : Notifier σ) (perform : Performer (Reported σ)) (ins : Instruction)
    (r : Reported σ) (m : Machine) : Reported σ × Machine × Nat :=
  let next := m.pc + 1
  match ins.command with
  | .assign =>
    let (value, r) := evaluate note ins r m
    (r, { m with env := m.env.set ins.name value }, next)
  | .jump => (r, m, ins.target.toNat)
  | .branch =>
    let (value, r) := evaluate note ins r m
    (r, m, if value != 0 then ins.onTrue.toNat else ins.onFalse.toNat)
  | .action =>
    let (value, r) := evaluate note ins r m
    match Action.ofCode? ins.action with
    | some a =>
      let (r, m) := perform r m a value
      (r, m, next)
    | none => (r, m, next)
  | .unset => (r, { m with env := m.env.erase ins.name }, next)
  | .unknown _ _ => (r, m, next)

def stepWith (note : Notifier σ) (perform : Performer (Reported σ)) (r : Reported σ)
    (m : Machine) : Reported σ × Machine × Except RuntimeError Bool :=
  match m.invalid with
  | some e => (r, m, .error e)
  | none =>
    match m.program[m.pc]? with
    | none => (r, m, .ok false)
    | some ins =>
      if m.isExhausted then (r, m, .error (.stepLimit m.limit m.pc))
      else
        let (r, m, next) := execute note perform ins r m
        let m := m.commit next
        (r, m, .ok (!m.isHalted))

def runLoop (h : Host σ) (perform : Performer (Reported σ)) : (fuel : Nat) → Reported σ →
    Machine → Reported σ × Machine × Option (Except RunError Unit)
  | 0, r, m => (r, m, none)
  | fuel + 1, r, m =>
    match h.stop r.1 with
    | some cause => (r, m, some (.error (.runtime (.stopped cause m.timeout m.pc))))
    | none =>
      match stepWith h.note perform r m with
      | (r, m, .error e) => (r, m, some (.error (.runtime e)))
      | (r, m, .ok false) => (r, m, some (.ok ()))
      | (r, m, .ok true) => runLoop h perform fuel r m

def runWith (h : Host σ) (perform : Performer (Reported σ)) (fuel : Nat) (r : Reported σ)
    (m : Machine) : Reported σ × Machine × Option (Except RunError Unit) :=
  if m.running then (r, m, some (.error .busy))
  else
    let (r, m, outcome) := runLoop h perform fuel r { m with running := true }
    (r, { m with running := false }, outcome)

def perform (h : Host σ) (fuel : Nat) : (depth : Nat) → Performer (Reported σ)
  | 0, r, m, a, value => (((h.act r.1 a value).1, r.2), m)
  | depth + 1, r, m, a, value =>
    match h.act r.1 a value with
    | (s, .proceed) => ((s, r.2), m)
    | (s, .step) =>
      let (r, m, outcome) := stepWith h.note (perform h fuel depth) (s, r.2) m
      ((h.stepped r.1 outcome, r.2), m)
    | (s, .run) =>
      let (r, m, outcome) := runWith h (perform h fuel depth) fuel (s, r.2) m
      ((outcome.elim r.1 (h.ran r.1), r.2), m)

def step (h : Host σ) (fuel depth : Nat) (r : Reported σ) (m : Machine) :
    Reported σ × Machine × Except RuntimeError Bool :=
  stepWith h.note (perform h fuel depth) r m

def run (h : Host σ) (fuel depth : Nat) (r : Reported σ) (m : Machine) :
    Reported σ × Machine × Option (Except RunError Unit) :=
  runWith h (perform h fuel depth) fuel r m

/-- A run that is found stopped from outside at look number `cut`, unless it has ended before. -/
def runUntil (h : Host σ) (depth cut : Nat) (cause : Cause) (r : Reported σ) (m : Machine) :
    Reported σ × Machine × Option (Except RunError Unit) :=
  match run h cut depth r m with
  | (r, m, some outcome) => (r, m, some outcome)
  | (r, m, none) => run { h with stop := fun _ => some cause } 1 depth r m

end Unrecorded

def keeping (m : Machine) (reports : List FaultReport) : Machine :=
  { m with
    diagnostics := ((reports.take maxDiagnostics).map FaultReport.diagnostic).toArray
    dropped := reports.length - maxDiagnostics }

def held (x : Reported σ × Machine) : σ × Machine := (x.1.1, x.2.keeping x.1.2)

def kept {α : Type} (x : Reported σ × Machine × α) : σ × Machine × α :=
  (x.1.1, x.2.1.keeping x.1.2, x.2.2)

theorem keeping_record (m : Machine) (reports : List FaultReport) (report : FaultReport) :
    (m.keeping reports).record report.diagnostic = m.keeping (reports ++ [report]) := by
  have hsize : (m.keeping reports).diagnostics.size = min maxDiagnostics reports.length := by
    simp [keeping]
  unfold record
  by_cases hroom : reports.length < maxDiagnostics
  · rw [if_pos (by omega)]
    have hall : reports.take maxDiagnostics = reports := List.take_of_length_le (by omega)
    have hmore : (reports ++ [report]).take maxDiagnostics = reports ++ [report] :=
      List.take_of_length_le (by simp; omega)
    have hnone : reports.length + 1 - maxDiagnostics = reports.length - maxDiagnostics := by omega
    simp only [keeping, hall, hmore, hnone, List.push_toArray, List.map_append, List.map_singleton,
      List.length_append, List.length_singleton]
  · rw [if_neg (by omega)]
    have hfirst : (reports ++ [report]).take maxDiagnostics = reports.take maxDiagnostics :=
      List.take_append_of_le_length (by omega)
    have hone : reports.length + 1 - maxDiagnostics = reports.length - maxDiagnostics + 1 := by
      omega
    simp only [keeping, hfirst, hone, List.length_append, List.length_singleton]

theorem report_keeping (note : Notifier σ) (ins : Instruction) (faults : List Fault) (s : σ)
    (reports : List FaultReport) (m : Machine) :
    report note ins faults s (m.keeping reports) =
      ((faults.map (m.reportOf ins)).foldl (fun s report => note s report.diagnostic) s,
        m.keeping (reports ++ faults.map (m.reportOf ins))) := by
  induction faults generalizing s reports with
  | nil =>
      rw [List.map_nil, List.append_nil]
      rfl
  | cons fault faults ih =>
      -- The bound may be reached at this fault: recording it keeps one report more in either case.
      have hrest := ih (note s (m.reportOf ins fault).diagnostic)
        (reports ++ [m.reportOf ins fault])
      rw [← keeping_record, List.append_assoc] at hrest
      exact hrest

theorem evaluate_keeping (note : Notifier σ) (ins : Instruction) (r : Reported σ) (m : Machine) :
    evaluate note ins r.1 (m.keeping r.2) =
      ((Unrecorded.evaluate note ins r m).1, (Unrecorded.evaluate note ins r m).2.1,
        m.keeping (Unrecorded.evaluate note ins r m).2.2) := by
  have hvaluation : (m.keeping r.2).valuation = m.valuation := rfl
  simp only [evaluate, hvaluation, report_keeping, Unrecorded.evaluate, reports]

def Mirrors (perform : Performer σ) (listing : Performer (Reported σ)) : Prop :=
  ∀ r m a value, perform r.1 (m.keeping r.2) a value = held (listing r m a value)

section Runs

variable {h : Host σ} {perform : Performer σ} {listing : Performer (Reported σ)}

theorem Mirrors.execute (hmirrors : Mirrors perform listing) (note : Notifier σ)
    (ins : Instruction) (r : Reported σ) (m : Machine) :
    Machine.execute note perform ins r.1 (m.keeping r.2) =
      kept (Unrecorded.execute note listing ins r m) := by
  have hevaluate := evaluate_keeping note ins r m
  unfold Machine.execute Unrecorded.execute
  cases ins.command with
  | assign => simp only [hevaluate]; rfl
  | jump => rfl
  | branch => simp only [hevaluate]; rfl
  | action =>
      simp only [hevaluate]
      cases Action.ofCode? ins.action with
      | none => rfl
      | some a =>
          have hact := hmirrors (Unrecorded.evaluate note ins r m).2 m a
          simp only [hact]
          rfl
  | unset => rfl
  | unknown spelling foreign => rfl

theorem Mirrors.stepWith (hmirrors : Mirrors perform listing) (note : Notifier σ)
    (r : Reported σ) (m : Machine) :
    Machine.stepWith note perform r.1 (m.keeping r.2) =
      kept (Unrecorded.stepWith note listing r m) := by
  have hinvalid : (m.keeping r.2).invalid = m.invalid := rfl
  have hins : (m.keeping r.2).program[(m.keeping r.2).pc]? = m.program[m.pc]? := rfl
  have hlimit : (m.keeping r.2).isExhausted = m.isExhausted := rfl
  unfold Machine.stepWith Unrecorded.stepWith
  rw [hinvalid, hins, hlimit]
  cases m.invalid with
  | some e => rfl
  | none =>
      cases m.program[m.pc]? with
      | none => rfl
      | some ins =>
          cases m.isExhausted with
          | true => rfl
          | false => simp only [hmirrors.execute]; rfl

theorem Mirrors.runLoop (hmirrors : Mirrors perform listing) (fuel : Nat) (r : Reported σ)
    (m : Machine) :
    Machine.runLoop h perform fuel r.1 (m.keeping r.2) =
      kept (Unrecorded.runLoop h listing fuel r m) := by
  induction fuel generalizing r m with
  | zero => rfl
  | succ fuel ih =>
      unfold Machine.runLoop Unrecorded.runLoop
      cases h.stop r.1 with
      | some cause => rfl
      | none =>
          simp only [hmirrors.stepWith]
          obtain ⟨r', m', outcome⟩ := Unrecorded.stepWith h.note listing r m
          cases outcome with
          | error e => rfl
          | ok going =>
              cases going with
              | false => rfl
              | true => exact ih r' m'

theorem Mirrors.runWith (hmirrors : Mirrors perform listing) (fuel : Nat) (r : Reported σ)
    (m : Machine) :
    Machine.runWith h perform fuel r.1 (m.keeping r.2) =
      kept (Unrecorded.runWith h listing fuel r m) := by
  have hrunning : (m.keeping r.2).running = m.running := rfl
  unfold Machine.runWith Unrecorded.runWith
  rw [hrunning]
  cases m.running with
  | true => rfl
  | false =>
      have hloop := hmirrors.runLoop (h := h) fuel r { m with running := true }
      have hstart : { m.keeping r.2 with running := true } =
        ({ m with running := true } : Machine).keeping r.2 := rfl
      simp only [hstart, hloop]
      rfl

theorem mirrors_perform (h : Host σ) (fuel depth : Nat) :
    Mirrors (Machine.perform h fuel depth) (Unrecorded.perform h fuel depth) := by
  induction depth with
  | zero => exact fun _ _ _ _ => rfl
  | succ depth ih =>
      intro r m a value
      unfold Machine.perform Unrecorded.perform
      obtain ⟨s, reaction⟩ := h.act r.1 a value
      cases reaction with
      | proceed => rfl
      | step =>
          have hstep := ih.stepWith h.note (s, r.2) m
          simp only [hstep]
          rfl
      | run =>
          have hrun := ih.runWith (h := h) fuel (s, r.2) m
          simp only [hrun]
          rfl

theorem run_keeping (h : Host σ) (fuel depth : Nat) (r : Reported σ) (m : Machine) :
    (m.keeping r.2).run h fuel depth r.1 = kept (Unrecorded.run h fuel depth r m) :=
  (mirrors_perform h fuel depth).runWith fuel r m

theorem runUntil_keeping (h : Host σ) (depth cut : Nat) (cause : Cause) (r : Reported σ)
    (m : Machine) :
    (m.keeping r.2).runUntil h depth cut cause r.1 =
      kept (Unrecorded.runUntil h depth cut cause r m) := by
  unfold runUntil Unrecorded.runUntil
  rw [run_keeping]
  obtain ⟨r', m', outcome⟩ := Unrecorded.run h cut depth r m
  cases outcome with
  | some outcome => rfl
  | none => exact run_keeping _ 1 depth r' m'

end Runs

end Machine

namespace Call

open Machine

variable {σ : Type}

def apply (fuel depth : Nat) (x : σ × Machine) : Call σ → σ × Machine
  | step h =>
    let (s, m, _) := x.2.step h fuel depth x.1
    (s, m)
  | run h cut cause =>
    let (s, m, _) := x.2.runUntil h depth cut cause x.1
    (s, m)

def applyUnrecorded (fuel depth : Nat) (x : Reported σ × Machine) : Call σ → Reported σ × Machine
  | step h =>
    let (r, m, _) := Unrecorded.step h fuel depth x.1 x.2
    (r, m)
  | run h cut cause =>
    let (r, m, _) := Unrecorded.runUntil h depth cut cause x.1 x.2
    (r, m)

theorem apply_held (fuel depth : Nat) (x : Reported σ × Machine) (call : Call σ) :
    apply fuel depth (held x) call = held (applyUnrecorded fuel depth x call) := by
  obtain ⟨r, m⟩ := x
  cases call with
  | step h =>
      have hstep := (mirrors_perform h fuel depth).stepWith h.note r m
      simp only [apply, held, Machine.step, hstep]
      rfl
  | run h cut cause =>
      simp only [apply, held, runUntil_keeping]
      rfl

theorem foldl_apply_held (fuel depth : Nat) (x : Reported σ × Machine) (calls : List (Call σ)) :
    calls.foldl (apply fuel depth) (held x) =
      held (calls.foldl (applyUnrecorded fuel depth) x) := by
  induction calls generalizing x with
  | nil => rfl
  | cons call calls ih => rw [List.foldl_cons, apply_held, ih, List.foldl_cons]

end Call

/-- Whatever calls are made of a new machine, its diagnostics are the first 1000 of all reports, in
the order of execution and with the place and the listing of the instruction that was executed. All
reports are counted, and no diagnostic is fatal. The host, the place, the variables and the number
of steps are those of a machine that keeps no diagnostics. -/
theorem diagnostics_are_first_reports {σ : Type} (program : Program) (limit : Int)
    (timeout : Duration) (env : Env) (s₀ : σ) (fuel depth : Nat) (calls : List (Call σ)) :
    let m₀ : Machine := { Machine.new program limit timeout with env }
    let (s, m) := calls.foldl (Call.apply fuel depth) (s₀, m₀)
    let ((s', reports), m') := calls.foldl (Call.applyUnrecorded fuel depth) ((s₀, []), m₀)
    m.diagnostics.toList = (reports.take 1000).map FaultReport.diagnostic ∧
      m.diagnosticCount = reports.length ∧
      (∀ d ∈ m.diagnostics, d.isFatal = false) ∧
      s = s' ∧ m.pc = m'.pc ∧ m.env = m'.env ∧ m.steps = m'.steps := by
  intro m₀
  have hcalls := Call.foldl_apply_held fuel depth ((s₀, []), m₀) calls
  have hstart : Machine.held ((s₀, []), m₀) = (s₀, m₀) := by
    simp [Machine.held, Machine.keeping, Machine.new, m₀]
  rw [hstart] at hcalls
  rw [hcalls]
  obtain ⟨⟨s', reports⟩, m'⟩ := calls.foldl (Call.applyUnrecorded fuel depth) ((s₀, []), m₀)
  refine ⟨rfl, ?_, ?_, rfl, rfl, rfl, rfl⟩
  · simp only [Machine.keeping, Machine.diagnosticCount, List.size_toArray,
      List.length_map, List.length_take]
    omega
  · intro d hd
    obtain ⟨report, -, rfl⟩ := List.mem_map.1 (List.mem_toArray.1 hd)
    exact report.isFatal_diagnostic

end Tortoise
