import Tortoise.Proofs.Machine.Scope
import Tortoise.Proofs.Machine.Snapshot

/-!
# What a step can do

A step passes control on and changes the variables as its instruction says. The one step that a
host may make from inside an action executes that action once more, which changes no variable, and
a run from inside is refused while the machine is running.
-/

namespace Tortoise

def Instruction.Transforms (ins : Instruction) (env env' : Env) : Prop :=
  match ins.command with
  | .assign => ∃ value, env' = env.set ins.name value
  | .unset => env' = env.erase ins.name
  | _ => env' = env

namespace Instruction.Transforms

variable {ins : Instruction} {env env' : Env}

theorem contains_iff (h : ins.Transforms env env') (name : Text) :
    env'.contains name = true ↔ ins.Leaves name (env.contains name = true) := by
  unfold Transforms at h
  unfold Leaves
  cases hcommand : ins.command with
  | assign =>
      simp only [hcommand] at h
      obtain ⟨value, rfl⟩ := h
      exact Env.contains_set
  | unset =>
      simp only [hcommand] at h
      subst h
      exact Env.contains_erase
  | _ =>
      simp only [hcommand] at h
      rw [h]

end Instruction.Transforms

namespace Host

variable {σ : Type}

def NeverRuns (h : Host σ) : Prop := ∀ s a value, (h.act s a value).2 ≠ .run

/-- What is true of the host stays true as long as it hears of clean diagnostics only. -/
structure Preserves (h : Host σ) (I : σ → Prop) : Prop where
  act : ∀ s a value, I s → I (h.act s a value).1
  note : ∀ s d, d.event.Clean → I s → I (h.note s d)
  stepped : ∀ s outcome, I s → I (h.stepped s outcome)
  ran : ∀ s outcome, I s → I (h.ran s outcome)

theorem preserves_true (h : Host σ) : h.Preserves fun _ => True :=
  ⟨fun _ _ _ _ => trivial, fun _ _ _ _ => trivial, fun _ _ _ => trivial, fun _ _ _ => trivial⟩

theorem preserves_clean_log (h : Host σ) :
    h.recorded.Preserves fun s => ∀ event ∈ s.2, event.Clean := by
  have happend {log : List Event} {event : Event} (hlog : ∀ event ∈ log, event.Clean)
      (hevent : event.Clean) : ∀ e ∈ log ++ [event], e.Clean := by
    intro e he
    rcases List.mem_append.1 he with he | he
    · exact hlog e he
    · obtain rfl := List.mem_singleton.1 he
      exact hevent
  exact ⟨fun _ _ _ hlog => happend hlog trivial, fun _ _ hd hlog => happend hlog hd,
    fun _ _ hlog => hlog, fun _ _ hlog => hlog⟩

end Host

namespace Machine

variable {σ : Type}

structure Discreet (I : σ → Prop) (s : σ) (m : Machine) : Prop where
  host : I s
  diagnostics : ∀ d ∈ m.diagnostics, d.event.Clean

structure SameSetting (m m' : Machine) : Prop where
  program_eq : m'.program = m.program
  invalid_eq : m'.invalid = m.invalid
  running_eq : m'.running = m.running

theorem SameSetting.trans {m m' m'' : Machine} (h : m.SameSetting m') (h' : m'.SameSetting m'') :
    m.SameSetting m'' :=
  ⟨h'.program_eq.trans h.program_eq, h'.invalid_eq.trans h.invalid_eq,
    h'.running_eq.trans h.running_eq⟩

theorem SameState.sameSetting {m m' : Machine} (h : m.SameState m') : m.SameSetting m' := by
  rw [h]
  exact ⟨rfl, rfl, rfl⟩

structure Advances (m m' : Machine) : Prop extends SameSetting m m' where
  moves : (m'.pc = m.pc ∧ m'.env = m.env) ∨
    ∃ ins, m.program[m.pc]? = some ins ∧ ins.Passes m.pc m'.pc ∧ ins.Transforms m.env m'.env

structure Ready (h : Host σ) (m : Machine) : Prop where
  valid : m.invalid = none
  guarded : m.running = true ∨ h.NeverRuns
  quiet : ∀ ins, m.program[m.pc]? = some ins →
    ∀ fault ∈ (ins.expr.eval m.env.get?).2, fault.event.Clean

theorem SameState.ready {h : Host σ} {m m' : Machine} (hsame : m.SameState m')
    (hready : m.Ready h) : m'.Ready h := by
  rw [hsame]
  exact ⟨hready.valid, hready.guarded, hready.quiet⟩

section Steps

variable {h : Host σ} {I : σ → Prop} {s : σ} {m : Machine}

theorem Discreet.record (hI : h.Preserves I) (hm : Discreet I s m) {d : RuntimeError}
    (hd : d.event.Clean) : Discreet I (h.note s d) (m.record d) := by
  refine ⟨hI.note s d hd hm.host, ?_⟩
  unfold Machine.record
  split
  · intro d' hd'
    rcases Array.mem_push.1 hd' with hd' | rfl
    · exact hm.diagnostics d' hd'
    · exact hd
  · exact hm.diagnostics

theorem report_discreet (hI : h.Preserves I) (ins : Instruction) {faults : List Fault}
    (hfaults : ∀ fault ∈ faults, fault.event.Clean) (hm : Discreet I s m) :
    ∃ s' m', report h.note ins faults s m = (s', m') ∧ m.SameState m' ∧ Discreet I s' m' := by
  induction faults generalizing s m with
  | nil => exact ⟨s, m, rfl, rfl, hm⟩
  | cons fault faults ih =>
      let d := RuntimeError.ofFault fault m.pc ins.render
      have hd : d.event.Clean := by
        rw [event_ofFault]
        exact hfaults fault List.mem_cons_self
      obtain ⟨s', m', hreport, hsame, hdiscreet⟩ := ih
        (fun f hf => hfaults f (List.mem_cons_of_mem _ hf)) (hm.record hI hd)
      exact ⟨s', m', hreport, (sameState_record m d).trans hsame, hdiscreet⟩

def Idle (h : Host σ) (I : σ → Prop) (perform : Performer σ) : Prop :=
  ∀ s m a value, m.Ready h → (∃ ins, m.program[m.pc]? = some ins ∧ ins.command = .action) →
    Discreet I s m →
    ∃ s' m', perform s m a value = (s', m') ∧ Discreet I s' m' ∧ m.SameSetting m' ∧
      m'.env = m.env

theorem advances_commit {m' : Machine} (hsetting : m.SameSetting m') {ins : Instruction}
    (hins : m.program[m.pc]? = some ins) (env : Env) {next : Nat} (hpasses : ins.Passes m.pc next)
    (htransforms : ins.Transforms m.env env) : m.Advances ({ m' with env }.commit next) where
  toSameSetting := hsetting.trans ⟨rfl, rfl, rfl⟩
  moves := Or.inr ⟨ins, hins, hpasses, htransforms⟩

theorem execute_advances (hI : h.Preserves I) {perform : Performer σ} (hidle : Idle h I perform)
    (hready : m.Ready h) {ins : Instruction} (hins : m.program[m.pc]? = some ins)
    (hm : Discreet I s m) :
    ∃ s' m' next, execute h.note perform ins s m = (s', m', next) ∧ Discreet I s' m' ∧
      m.Advances (m'.commit next) := by
  obtain ⟨s₁, m₁, hreport, hsame, hm₁⟩ := report_discreet hI ins (hready.quiet ins hins) hm
  have hevaluate : evaluate h.note ins s m = ((ins.expr.eval m.env.get?).1, s₁, m₁) := by
    unfold evaluate
    rw [← hreport]
    rfl
  have henv : m₁.env = m.env := by rw [hsame]
  have hins₁ : m₁.program[m₁.pc]? = some ins := by rw [hsame]; exact hins
  unfold execute
  cases hcommand : ins.command with
  | assign =>
      simp only [hevaluate]
      refine ⟨_, _, _, rfl, ⟨hm₁.host, hm₁.diagnostics⟩,
        advances_commit hsame.sameSetting hins _ ?_ ?_⟩
      · simp [Instruction.Passes, hcommand]
      · simp only [Instruction.Transforms, hcommand, henv]
        exact ⟨_, rfl⟩
  | jump =>
      refine ⟨s, m, _, rfl, hm, advances_commit ⟨rfl, rfl, rfl⟩ hins m.env ?_ ?_⟩
      · simp [Instruction.Passes, hcommand]
      · simp [Instruction.Transforms, hcommand]
  | branch =>
      simp only [hevaluate]
      refine ⟨_, _, _, rfl, hm₁, advances_commit hsame.sameSetting hins m₁.env ?_ ?_⟩
      · simp only [Instruction.Passes, hcommand]
        split
        · exact Or.inl rfl
        · exact Or.inr rfl
      · simp [Instruction.Transforms, hcommand, henv]
  | action =>
      simp only [hevaluate]
      cases haction : Action.ofCode? ins.action with
      | none =>
          refine ⟨_, _, _, rfl, hm₁, advances_commit hsame.sameSetting hins m₁.env ?_ ?_⟩
          · simp [Instruction.Passes, hcommand]
          · simp [Instruction.Transforms, hcommand, henv]
      | some a =>
          obtain ⟨s₂, m₂, hperform, hm₂, hsetting, henv₂⟩ := hidle s₁ m₁ a
            (ins.expr.eval m.env.get?).1 (hsame.ready hready) ⟨ins, hins₁, hcommand⟩ hm₁
          simp only [hperform]
          refine ⟨_, _, _, rfl, hm₂,
            advances_commit (hsame.sameSetting.trans hsetting) hins m₂.env ?_ ?_⟩
          · simp [Instruction.Passes, hcommand]
          · simp [Instruction.Transforms, hcommand, henv₂, henv]
  | unset =>
      refine ⟨s, _, _, rfl, ⟨hm.host, hm.diagnostics⟩,
        advances_commit ⟨rfl, rfl, rfl⟩ hins _ ?_ ?_⟩
      · simp [Instruction.Passes, hcommand]
      · simp [Instruction.Transforms, hcommand]
  | unknown spelling foreign =>
      refine ⟨s, m, _, rfl, hm, advances_commit ⟨rfl, rfl, rfl⟩ hins m.env ?_ ?_⟩
      · simp [Instruction.Passes, hcommand]
      · simp [Instruction.Transforms, hcommand]

theorem stepWith_advances (hI : h.Preserves I) {perform : Performer σ} (hidle : Idle h I perform)
    (hready : m.Ready h) (hm : Discreet I s m) :
    ∃ s' m' outcome, stepWith h.note perform s m = (s', m', outcome) ∧ Discreet I s' m' ∧
      m.Advances m' := by
  have hstays : m.Advances m := ⟨⟨rfl, rfl, rfl⟩, Or.inl ⟨rfl, rfl⟩⟩
  unfold stepWith
  simp only [hready.valid]
  cases hins : m.program[m.pc]? with
  | none => exact ⟨s, m, _, rfl, hm, hstays⟩
  | some ins =>
      by_cases hlimit : m.isExhausted = true
      · simp only [hlimit, if_true]
        exact ⟨s, m, _, rfl, hm, hstays⟩
      · obtain ⟨s', m', next, hexecute, hm', hadvances⟩ :=
          execute_advances hI hidle hready hins hm
        simp only [hlimit, hexecute]
        exact ⟨s', m'.commit next, _, rfl, ⟨hm'.host, hm'.diagnostics⟩, hadvances⟩

/-- Whatever a host does from inside an action changes no variable. -/
theorem perform_idle (hI : h.Preserves I) (fuel depth : Nat) : Idle h I (perform h fuel depth) := by
  induction depth with
  | zero =>
      intro s m a value _ _ hm
      exact ⟨_, m, rfl, ⟨hI.act s a value hm.host, hm.diagnostics⟩, ⟨rfl, rfl, rfl⟩, rfl⟩
  | succ depth ih =>
      rintro s m a value hready ⟨ins, hins, hcommand⟩ hm
      have hacted := hI.act s a value hm.host
      have hguarded := hready.guarded
      cases hact : h.act s a value with
      | mk s₁ reaction =>
          rw [hact] at hacted
          have hm₁ : Discreet I s₁ m := ⟨hacted, hm.diagnostics⟩
          cases reaction with
          | proceed =>
              simp only [perform, hact]
              exact ⟨s₁, m, rfl, hm₁, ⟨rfl, rfl, rfl⟩, rfl⟩
          | step =>
              obtain ⟨s₂, m₂, outcome, hstep, hm₂, hadvances⟩ :=
                stepWith_advances hI ih hready hm₁
              simp only [perform, hact, hstep]
              refine ⟨_, m₂, rfl, ⟨hI.stepped s₂ outcome hm₂.host, hm₂.diagnostics⟩,
                hadvances.toSameSetting, ?_⟩
              rcases hadvances.moves with ⟨_, henv⟩ | ⟨ins', hins', _, htransforms⟩
              · exact henv
              · obtain rfl := Option.some.inj (hins.symm.trans hins')
                simpa [Instruction.Transforms, hcommand] using htransforms
          | run =>
              rcases hguarded with hrunning | hnever
              · simp only [perform, hact, runWith, hrunning, if_true]
                exact ⟨_, m, rfl, ⟨hI.ran s₁ _ hacted, hm.diagnostics⟩, ⟨rfl, rfl, rfl⟩, rfl⟩
              · exact absurd (congrArg Prod.snd hact) (hnever s a value)

end Steps

end Machine

end Tortoise
