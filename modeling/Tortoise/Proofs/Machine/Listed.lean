import Tortoise.Proofs.Machine.Bounds
import Tortoise.Proofs.Program.Listing

/-!
# The listing of a program determines what it does

Two programs with one listing need not be the same, but the instructions on each line have the same
effect: the same value of the expression, the same faults, and the line itself as their context. So
machines that differ in such programs only stay alike, with every `Host`.
-/

namespace Tortoise

def Instruction.SameEffect (ins ins' : Instruction) : Prop :=
  ∀ {σ : Type} (note : Notifier σ) (perform : Performer σ) (s : σ) (m : Machine),
    Machine.execute note perform ins s m = Machine.execute note perform ins' s m

theorem Instruction.SameDeed.sameEffect {ins ins' : Instruction} {v : Verb}
    (h : ins.SameDeed ins' v) (hverb : ins.verb? = some v) (hverb' : ins'.verb? = some v)
    (hrender : ins.render = ins'.render) : ins.SameEffect ins' := by
  intro σ note perform s m
  obtain ⟨hcommand, haction⟩ := verb?_eq_some_iff.1 hverb
  obtain ⟨hcommand', haction'⟩ := verb?_eq_some_iff.1 hverb'
  have hevaluate (heval : ∀ env, ins.expr.eval env = ins'.expr.eval env) :
      Machine.evaluate note ins s m = Machine.evaluate note ins' s m := by
    simp only [Machine.evaluate, Machine.report, heval, hrender]
  cases v with
  | assign => simp only [Machine.execute, hcommand, hcommand', Verb.command, hevaluate h.2, h.1]
  | jump =>
      have htarget : ins.target = ins'.target := h
      simp only [Machine.execute, hcommand, hcommand', Verb.command, htarget]
  | branch =>
      simp only [Machine.execute, hcommand, hcommand', Verb.command, hevaluate h.1, h.2.1, h.2.2]
  | act a =>
      simp only [Machine.execute, hcommand, hcommand', Verb.command, hevaluate h, haction a rfl,
        haction' a rfl]
  | unset =>
      have hname : ins.name = ins'.name := h
      simp only [Machine.execute, hcommand, hcommand', Verb.command, hname]

namespace Program

variable {p q : Program}

def SameEffects (p q : Program) : Prop :=
  ∀ i : Nat, Option.Rel Instruction.SameEffect p[i]? q[i]?

theorem SameEffects.size_eq (h : p.SameEffects q) : p.size = q.size := by
  have hle (i : Nat) : p.size ≤ i ↔ q.size ≤ i := by
    rw [← Array.getElem?_eq_none_iff, ← Array.getElem?_eq_none_iff]
    have hrel := h i
    cases hpi : p[i]? <;> cases hqi : q[i]? <;> rw [hpi, hqi] at hrel <;> cases hrel
    simp
  exact Nat.le_antisymm ((hle q.size).2 (Nat.le_refl _)) ((hle p.size).1 (Nat.le_refl _))

theorem sameEffects_of_listing (hp : ∀ ins ∈ p, ins.Legible) (hq : ∀ ins ∈ q, ins.Legible)
    (hvalid : p.invalid? = none) (hvalid' : q.invalid? = none) (h : p.listing = q.listing) :
    p.SameEffects q := by
  intro i
  have hlegal : ∀ ins ∈ p, ins.flaw? p.size = none := fun ins => flaw?_of_valid hvalid
  have hlegal' : ∀ ins ∈ q, ins.flaw? q.size = none := fun ins => flaw?_of_valid hvalid'
  have hline := render_of_listing hp hq hlegal hlegal' h i
  cases hpi : p[i]? with
  | none =>
      rw [hpi] at hline
      rw [Option.map_eq_none_iff.1 hline.symm]
      exact .none
  | some ins =>
      rw [hpi] at hline
      obtain ⟨ins', hqi, hrender⟩ := Option.map_eq_some_iff.1 hline.symm
      have hins := Array.mem_of_getElem? hpi
      have hins' := Array.mem_of_getElem? hqi
      obtain ⟨v, hv, hv', hsame⟩ := Instruction.exists_sameDeed (hp ins hins) (hq ins' hins')
        (hlegal ins hins) (hlegal' ins' hins') hrender.symm
      rw [hqi]
      exact .some (hsame.sameEffect hv hv' hrender.symm)

end Program

namespace Machine

variable {σ : Type} {p q : Program} {m m' : Machine}

def on (m : Machine) (q : Program) : Machine := { m with program := q }

structure Twins (p q : Program) (m m' : Machine) : Prop where
  program_eq : m.program = p
  eq_on : m' = m.on q

structure SameResult {α : Type} (p q : Program) (x y : σ × Machine × α) : Prop where
  host_eq : y.1 = x.1
  twins : Twins p q x.2.1 y.2.1
  outcome_eq : y.2.2 = x.2.2

def Impartial (p q : Program) (perform : Performer σ) : Prop :=
  ∀ s m m' a value, Twins p q m m' → (perform s m' a value).1 = (perform s m a value).1 ∧
    Twins p q (perform s m a value).2 (perform s m' a value).2

theorem Twins.pc_eq (h : Twins p q m m') : m'.pc = m.pc := by
  rw [h.eq_on]
  rfl

theorem Twins.record (h : Twins p q m m') (d : RuntimeError) :
    Twins p q (m.record d) (m'.record d) := by
  obtain ⟨rfl, rfl⟩ := h
  unfold Machine.record
  split
  next hroom => exact ⟨rfl, if_pos hroom⟩
  next hfull => exact ⟨rfl, if_neg hfull⟩

theorem Twins.report (h : Twins p q m m') (note : Notifier σ) (ins : Instruction)
    (faults : List Fault) (s : σ) :
    (report note ins faults s m').1 = (report note ins faults s m).1 ∧
      Twins p q (report note ins faults s m).2 (report note ins faults s m').2 := by
  induction faults generalizing s m m' with
  | nil => exact ⟨rfl, h⟩
  | cons fault faults ih =>
      have hrest := ih (h.record (.ofFault fault m.pc ins.render))
        (note s (.ofFault fault m.pc ins.render))
      simp only [Machine.report, List.foldl_cons, h.pc_eq] at hrest ⊢
      exact hrest

section Steps

variable {perform : Performer σ}

theorem Twins.evaluate (h : Twins p q m m') (note : Notifier σ) (ins : Instruction) (s : σ) :
    ∃ value s₁ m₁ m₁', evaluate note ins s m = (value, s₁, m₁) ∧
      evaluate note ins s m' = (value, s₁, m₁') ∧ Twins p q m₁ m₁' := by
  have hvaluation : m'.valuation = m.valuation := by rw [h.eq_on]; rfl
  obtain ⟨hhost, htwins⟩ := h.report note ins (ins.expr.eval m.valuation).2 s
  refine ⟨(ins.expr.eval m.valuation).1,
    (Machine.report note ins (ins.expr.eval m.valuation).2 s m).1, _, _, rfl, ?_, htwins⟩
  rw [Machine.evaluate, hvaluation, ← hhost]

theorem Twins.execute (h : Twins p q m m') (hperform : Impartial p q perform)
    (note : Notifier σ) (ins : Instruction) (s : σ) :
    SameResult p q (execute note perform ins s m) (execute note perform ins s m') := by
  obtain ⟨value, s₁, m₁, m₁', hevaluate, hevaluate', htwins⟩ := h.evaluate note ins s
  cases hcommand : ins.command with
  | assign =>
      simp only [Machine.execute, hcommand, hevaluate, hevaluate', h.pc_eq]
      obtain ⟨rfl, rfl⟩ := htwins
      exact ⟨rfl, ⟨rfl, rfl⟩, rfl⟩
  | jump | unknown =>
      simp only [Machine.execute, hcommand, h.pc_eq]
      exact ⟨rfl, h, rfl⟩
  | branch =>
      simp only [Machine.execute, hcommand, hevaluate, hevaluate']
      exact ⟨rfl, htwins, rfl⟩
  | action =>
      simp only [Machine.execute, hcommand, hevaluate, hevaluate', h.pc_eq]
      cases Action.ofCode? ins.action with
      | none => exact ⟨rfl, htwins, rfl⟩
      | some a =>
          obtain ⟨hhost, hacted⟩ := hperform s₁ m₁ m₁' a value htwins
          exact ⟨hhost, hacted, rfl⟩
  | unset =>
      simp only [Machine.execute, hcommand, h.pc_eq]
      obtain ⟨rfl, rfl⟩ := h
      exact ⟨rfl, ⟨rfl, rfl⟩, rfl⟩

theorem Twins.commit (h : Twins p q m m') (next : Nat) :
    Twins p q (m.commit next) (m'.commit next) := by
  obtain ⟨rfl, rfl⟩ := h
  exact ⟨rfl, rfl⟩

theorem Twins.isHalted_eq (h : Twins p q m m') (hsame : p.SameEffects q) :
    m'.isHalted = m.isHalted := by
  obtain ⟨rfl, rfl⟩ := h
  exact congrArg (fun size : Nat => decide (size ≤ m.pc)) hsame.size_eq.symm

theorem Twins.stepWith (h : Twins p q m m') (hsame : p.SameEffects q)
    (hperform : Impartial p q perform) (note : Notifier σ) (s : σ) :
    SameResult p q (stepWith note perform s m) (stepWith note perform s m') := by
  have hinvalid : m'.invalid = m.invalid := by rw [h.eq_on]; rfl
  have hprogram : m'.program[m'.pc]? = q[m.pc]? := by rw [h.eq_on]; rfl
  have hexhausted : m'.isExhausted = m.isExhausted := by rw [h.eq_on]; rfl
  have hlimit : RuntimeError.stepLimit m'.limit m'.pc = .stepLimit m.limit m.pc := by
    rw [h.eq_on]; rfl
  simp only [Machine.stepWith, hinvalid, hprogram, hexhausted, hlimit, h.program_eq]
  cases m.invalid with
  | some e => exact ⟨rfl, h, rfl⟩
  | none =>
      have hrel := hsame m.pc
      cases hpi : p[m.pc]? with
      | none =>
          rw [hpi] at hrel
          generalize q[m.pc]? = found at hrel
          cases hrel
          exact ⟨rfl, h, rfl⟩
      | some ins =>
          rw [hpi] at hrel
          generalize q[m.pc]? = found at hrel
          cases hrel with
          | some heffect =>
              by_cases hover : m.isExhausted = true
              · simp only [hover, if_true]
                exact ⟨rfl, h, rfl⟩
              · obtain ⟨hhost, htwins, hnext⟩ := h.execute hperform note ins s
                have hcommit := htwins.commit (Machine.execute note perform ins s m).2.2
                simp only [hover, ← heffect note perform s m', hhost, hnext]
                exact ⟨rfl, hcommit, congrArg (fun b => Except.ok !b) (hcommit.isHalted_eq hsame)⟩

theorem Twins.runLoop (h : Twins p q m m') (hsame : p.SameEffects q)
    (hperform : Impartial p q perform) (host : Host σ) (fuel : Nat) (s : σ) :
    SameResult p q (runLoop host perform fuel s m) (runLoop host perform fuel s m') := by
  induction fuel generalizing s m m' with
  | zero => exact ⟨rfl, h, rfl⟩
  | succ fuel ih =>
      have hstopped (cause : Cause) : RuntimeError.stopped cause m'.timeout m'.pc =
          .stopped cause m.timeout m.pc := by rw [h.eq_on]; rfl
      have hstep := h.stepWith hsame hperform host.note s
      simp only [Machine.runLoop, hstopped]
      cases host.stop s with
      | some cause => exact ⟨rfl, h, rfl⟩
      | none =>
          generalize Machine.stepWith host.note perform s m = result at hstep ⊢
          generalize Machine.stepWith host.note perform s m' = result' at hstep ⊢
          obtain ⟨s₁, m₁, outcome⟩ := result
          obtain ⟨s₁', m₁', outcome'⟩ := result'
          obtain ⟨rfl, htwins, rfl⟩ := hstep
          cases outcome' with
          | error e => exact ⟨rfl, htwins, rfl⟩
          | ok goesOn =>
              cases goesOn with
              | false => exact ⟨rfl, htwins, rfl⟩
              | true => exact ih htwins s₁'

theorem Twins.setRunning (h : Twins p q m m') (running : Bool) :
    Twins p q { m with running } { m' with running } := by
  obtain ⟨rfl, rfl⟩ := h
  exact ⟨rfl, rfl⟩

theorem Twins.runWith (h : Twins p q m m') (hsame : p.SameEffects q)
    (hperform : Impartial p q perform) (host : Host σ) (fuel : Nat) (s : σ) :
    SameResult p q (runWith host perform fuel s m) (runWith host perform fuel s m') := by
  have hrunning : m'.running = m.running := by rw [h.eq_on]; rfl
  simp only [Machine.runWith, hrunning]
  split
  next => exact ⟨rfl, h, rfl⟩
  next =>
    obtain ⟨hhost, htwins, houtcome⟩ := (h.setRunning true).runLoop hsame hperform host fuel s
    exact ⟨hhost, htwins.setRunning false, houtcome⟩

end Steps

/-- Whatever a host does from inside an action, it does to both machines. -/
theorem impartial_perform (hsame : p.SameEffects q) (host : Host σ) (fuel depth : Nat) :
    Impartial p q (perform host fuel depth) := by
  induction depth with
  | zero => exact fun s m m' a value h => ⟨rfl, h⟩
  | succ depth ih =>
      intro s m m' a value h
      simp only [perform]
      obtain ⟨s₁, reaction⟩ := host.act s a value
      cases reaction with
      | proceed => exact ⟨rfl, h⟩
      | step =>
          obtain ⟨hhost, htwins, houtcome⟩ := h.stepWith hsame ih host.note s₁
          exact ⟨congrArg₂ host.stepped hhost houtcome, htwins⟩
      | run =>
          obtain ⟨hhost, htwins, houtcome⟩ := h.runWith hsame ih host fuel s₁
          refine ⟨?_, htwins⟩
          simp only [hhost, houtcome]

theorem Twins.step (h : Twins p q m m') (hsame : p.SameEffects q) (host : Host σ)
    (fuel depth : Nat) (s : σ) :
    SameResult p q (m.step host fuel depth s) (m'.step host fuel depth s) :=
  h.stepWith hsame (impartial_perform hsame host fuel depth) host.note s

theorem Twins.afterSteps (h : Twins p q m m') (hsame : p.SameEffects q) (host : Host σ)
    (fuel depth n : Nat) (s : σ) :
    (afterSteps host fuel depth n s m').1 = (afterSteps host fuel depth n s m).1 ∧
      Twins p q (afterSteps host fuel depth n s m).2 (afterSteps host fuel depth n s m').2 := by
  induction n generalizing s m m' with
  | zero => exact ⟨rfl, h⟩
  | succ n ih =>
      obtain ⟨hhost, htwins, -⟩ := h.step hsame host fuel depth s
      simp only [Machine.afterSteps, hhost]
      exact ih htwins _

end Machine

/-- Two valid programs with one listing, whose names and expressions are legible, run alike: from
any environment, with any limit, timeout and host, the machines differ in their programs only after
each number of steps and after a run, the hosts have seen the same, and the outcomes agree. -/
theorem listing_determines_behaviour {p q : Program} (hp : p.isValid = true)
    (hq : q.isValid = true) (hlegible : ∀ ins ∈ p, ins.Legible)
    (hlegible' : ∀ ins ∈ q, ins.Legible) (hlisting : p.listing = q.listing) {σ : Type}
    (host : Host σ) (fuel depth : Nat) (limit : Int) (timeout : Duration) (env : Env) (s : σ) :
    let m : Machine := { Machine.new p limit timeout with env }
    let m' : Machine := { Machine.new q limit timeout with env }
    (∀ n, ∃ s₁ m₁ s₂ m₂ outcome, m.afterSteps host fuel depth n s = (s₁, m₁) ∧
      m'.afterSteps host fuel depth n s = (s₁, m₁.on q) ∧
      m₁.step host fuel depth s₁ = (s₂, m₂, outcome) ∧
      (m₁.on q).step host fuel depth s₁ = (s₂, m₂.on q, outcome)) ∧
    ∃ s₁ m₁ outcome, m.run host fuel depth s = (s₁, m₁, outcome) ∧
      m'.run host fuel depth s = (s₁, m₁.on q, outcome) := by
  intro m m'
  have hvalid : p.invalid? = none := Option.isNone_iff_eq_none.1 hp
  have hvalid' : q.invalid? = none := Option.isNone_iff_eq_none.1 hq
  have hsame := Program.sameEffects_of_listing hlegible hlegible' hvalid hvalid' hlisting
  have hstart : Machine.Twins p q m m' := by
    refine ⟨rfl, ?_⟩
    simp only [m, m', Machine.new, Machine.on, hvalid, hvalid']
  have hexact {α : Type} {x y : σ × Machine × α} (h : Machine.SameResult p q x y) :
      y = (x.1, x.2.1.on q, x.2.2) :=
    Prod.ext h.host_eq (Prod.ext h.twins.eq_on h.outcome_eq)
  constructor
  · intro n
    obtain ⟨hhost, htwins⟩ := hstart.afterSteps hsame host fuel depth n s
    have hstep := hexact (htwins.step hsame host fuel depth (m.afterSteps host fuel depth n s).1)
    rw [htwins.eq_on] at hstep
    exact ⟨_, _, _, _, _, rfl, Prod.ext hhost htwins.eq_on, rfl, hstep⟩
  · have hperform := Machine.impartial_perform hsame host fuel depth
    exact ⟨_, _, _, rfl, hexact (hstart.runWith hsame hperform host fuel s)⟩

/-- A number below zero and a sign in front of a number, nothing and zero. -/
theorem alike_listings_run_alike :
    let program (count nothing : Expr) : Program :=
      #[.assign (counterName 1) count, .act .move (.unary .negate (.var (counterName 1))),
        .branch nothing 0 3]
    let p := program (.literal (-5)) .null
    let q := program (.unary .negate (.literal 5)) (.literal 0)
    let host : Host (List (Action × Int64)) := { act := fun s a v => (s ++ [(a, v)], .proceed) }
    p ≠ q ∧ p.listing = q.listing ∧
      ((Machine.new q 0 .zero).run host 10 0 []).1 = [(.move, 5)] := by
  intro program p q host
  have hlisting : p.listing = q.listing := by decide
  have hname : (counterName 1).IsName := .inr ⟨1, rfl⟩
  have hlegible {count nothing : Expr} (hcount : count.Legible) (hnothing : nothing.Legible) :
      ∀ ins ∈ program count nothing, ins.Legible := by
    intro ins hins
    simp only [program, List.mem_toArray, List.mem_cons, List.not_mem_nil, or_false] at hins
    obtain rfl | rfl | rfl := hins
    · exact ⟨hname, hcount⟩
    · exact ⟨rfl, List.forall_mem_singleton.2 hname⟩
    · exact hnothing
  have hmoves : ((Machine.new p 0 .zero).run host 10 0 []).1 = [(.move, 5)] := by decide
  obtain ⟨-, s₁, m₁, outcome, hrun, hrun'⟩ := listing_determines_behaviour (p := p) (q := q)
    (by decide) (by decide) (hlegible ⟨rfl, nofun⟩ ⟨rfl, nofun⟩)
    (hlegible ⟨rfl, nofun⟩ ⟨rfl, nofun⟩) hlisting host 10 0 0 .zero {} []
  have hseen : s₁ = [(.move, 5)] := (congrArg Prod.fst hrun).symm.trans hmoves
  exact ⟨by decide, hlisting, (congrArg Prod.fst hrun').trans hseen⟩

end Tortoise
