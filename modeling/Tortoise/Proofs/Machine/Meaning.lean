import Tortoise.Machine.Basic
import Tortoise.Proofs.Compile.Tree

/-!
# The meaning of a body

A body acts on the variables of its user and leaves a trace of events: what it asks of the host and
the faults of its evaluations, in their order. A condition holds if it is not zero. A while loop
runs as long as its condition holds, an until loop as long as it does not, and a repeat block as
often as its count says, which is looked at once.

Loops need not end, so a clock bounds the rounds of every while and until loop. An execution
terminates if it ends for some clock, and its trace grows with the clock otherwise.
-/

namespace Tortoise

inductive Event where
  | action (action : Action) (value : Int64)
  | diagnostic (kind : ErrorKind) (detail : Text)
deriving DecidableEq

def Fault.event : Fault → Event
  | divisionByZero division => .diagnostic .divisionByZero ("division by zero in " ++ division)
  | undefinedVariable name => .diagnostic .undefinedVariable ("undefined variable: " ++ name)

/-- The events of an execution, and the variables at its end unless the clock ran out. -/
structure Trace where
  events : List Event
  final : Option Env

namespace Trace

def andThen (t : Trace) (f : Env → Trace) : Trace :=
  match t.final with
  | none => t
  | some env => ⟨t.events ++ (f env).events, (f env).final⟩

def ofEval (e : Expr) (env : Env) : Int64 × Trace :=
  let (value, faults) := e.eval env.get?
  (value, ⟨faults.map Fault.event, some env⟩)

def loop (negated : Bool) (cond : Expr) (round : Env → Trace) : (clock : Nat) → Env → Trace
  | 0, _ => ⟨[], none⟩
  | clock + 1, env =>
    let (value, t) := ofEval cond env
    if (value != 0) = negated then t
    else (t.andThen round).andThen (loop negated cond round clock)

def times (round : Env → Trace) : (count : Nat) → Env → Trace
  | 0, env => ⟨[], some env⟩
  | count + 1, env => (round env).andThen (times round count)

end Trace

def Trace.assign (name : Text) (e : Expr) (env : Env) : Trace :=
  let (value, t) := ofEval e env
  t.andThen fun env => ⟨[], some (env.set name value)⟩

def Simple.run : Simple → Env → Trace
  | assign name value, env => .assign name value env
  | increment name, env => .assign name (.binary .add (.var name) (.literal 1)) env
  | decrement name, env => .assign name (.binary .sub (.var name) (.literal 1)) env
  | act action argument, env =>
    let (value, t) := Trace.ofEval argument env
    t.andThen fun env => ⟨[.action action value], some env⟩

def Opening.run (clock : Nat) (inner : Env → Trace) : Opening → Env → Trace
  | ifThen cond, env =>
    let (value, t) := Trace.ofEval cond env
    t.andThen fun env => if value != 0 then inner env else ⟨[], some env⟩
  | loop negated cond, env => Trace.loop negated cond inner clock env
  | repeatLoop count, env =>
    let (value, t) := Trace.ofEval count env
    t.andThen (Trace.times inner value.toInt.toNat)

/-- Executes a body with at most `clock` rounds of each while and until loop. -/
def Body.run (clock : Nat) : Body → Env → Trace
  | done, env => ⟨[], some env⟩
  | simple statement next, env => (statement.run env).andThen (next.run clock)
  | block opening inner next, env =>
    (opening.run clock (inner.run clock) env).andThen (next.run clock)
  | ifElse cond yes no next, env =>
    let (value, t) := Trace.ofEval cond env
    (t.andThen fun env => if value != 0 then yes.run clock env else no.run clock env).andThen
      (next.run clock)

namespace Trace

/-- The second trace goes on where the clock stopped the first. -/
def Extends (t u : Trace) : Prop :=
  t.events <+: u.events ∧ ∀ env, t.final = some env → t = u

theorem Extends.refl (t : Trace) : t.Extends t := ⟨List.prefix_refl _, fun _ _ => rfl⟩

theorem andThen_of_final {t : Trace} {env : Env} (h : t.final = some env) (f : Env → Trace) :
    t.andThen f = ⟨t.events ++ (f env).events, (f env).final⟩ := by
  simp [andThen, h]

theorem andThen_of_none {t : Trace} (h : t.final = none) (f : Env → Trace) : t.andThen f = t := by
  simp [andThen, h]

def prepend (events : List Event) (t : Trace) : Trace := ⟨events ++ t.events, t.final⟩

theorem andThen_prepend (events : List Event) (t : Trace) (f : Env → Trace) :
    (t.prepend events).andThen f = (t.andThen f).prepend events := by
  cases h : t.final with
  | none => simp [andThen, prepend, h]
  | some env => simp [andThen, prepend, h]

theorem andThen_ofEval (e : Expr) (env : Env) (f : Env → Trace) :
    (ofEval e env).2.andThen f = (f env).prepend ((e.eval env.get?).2.map Fault.event) := rfl

theorem loop_of_eq {negated : Bool} {cond : Expr} {round : Env → Trace} {clock : Nat} {env : Env}
    (h : ((cond.eval env.get?).1 != 0) = negated) :
    loop negated cond round (clock + 1) env =
      ⟨(cond.eval env.get?).2.map Fault.event, some env⟩ :=
  if_pos h

theorem loop_of_ne {negated : Bool} {cond : Expr} {round : Env → Trace} {clock : Nat} {env : Env}
    (h : ((cond.eval env.get?).1 != 0) ≠ negated) :
    loop negated cond round (clock + 1) env =
      ((round env).andThen (loop negated cond round clock)).prepend
        ((cond.eval env.get?).2.map Fault.event) := by
  rw [← andThen_prepend, ← andThen_ofEval]
  exact if_neg h

theorem Extends.andThen {t u : Trace} {f g : Env → Trace} (h : t.Extends u)
    (hfg : ∀ env, (f env).Extends (g env)) : (t.andThen f).Extends (u.andThen g) := by
  cases hfinal : t.final with
  | some env =>
      obtain rfl := h.2 env hfinal
      rw [andThen_of_final hfinal, andThen_of_final hfinal]
      obtain ⟨hevents, heq⟩ := hfg env
      refine ⟨(List.prefix_append_right_inj _).2 hevents, ?_⟩
      intro final hf
      rw [heq final hf]
  | none =>
      rw [andThen_of_none hfinal]
      refine ⟨?_, by simp [hfinal]⟩
      cases hu : u.final with
      | none => rw [andThen_of_none hu]; exact h.1
      | some env => rw [andThen_of_final hu]; exact h.1.trans (List.prefix_append _ _)

theorem loop_extends {negated : Bool} {cond : Expr} {f g : Env → Trace}
    (hfg : ∀ env, (f env).Extends (g env)) {m n : Nat} (hmn : m ≤ n) (env : Env) :
    (loop negated cond f m env).Extends (loop negated cond g n env) := by
  induction m generalizing n env with
  | zero => exact ⟨List.nil_prefix, by simp [loop]⟩
  | succ m ih =>
      obtain ⟨n, rfl⟩ := Nat.exists_eq_add_of_le hmn
      rw [Nat.add_right_comm]
      simp only [loop]
      split
      · exact .refl _
      · exact ((Extends.refl _).andThen hfg).andThen fun env => ih (by omega) env

theorem times_extends {f g : Env → Trace} (hfg : ∀ env, (f env).Extends (g env)) (count : Nat)
    (env : Env) : (times f count env).Extends (times g count env) := by
  induction count generalizing env with
  | zero => exact .refl _
  | succ count ih => exact (hfg env).andThen ih

end Trace

/-- A longer clock only adds to the trace of an execution that it stopped. -/
theorem Body.run_extends (body : Body) {m n : Nat} (hmn : m ≤ n) (env : Env) :
    (body.run m env).Extends (body.run n env) := by
  induction body generalizing env with
  | done => exact .refl _
  | simple statement next ih => exact (Trace.Extends.refl _).andThen ih
  | block opening inner next ihi ihn =>
      refine Trace.Extends.andThen ?_ ihn
      cases opening with
      | ifThen cond =>
          refine (Trace.Extends.refl _).andThen fun env => ?_
          split
          · exact ihi env
          · exact .refl _
      | loop negated cond => exact Trace.loop_extends ihi hmn env
      | repeatLoop count => exact (Trace.Extends.refl _).andThen (Trace.times_extends ihi _)
  | ifElse cond yes no next ihy ihn ihx =>
      refine ((Trace.Extends.refl _).andThen fun env => ?_).andThen ihx
      split
      · exact ihy env
      · exact ihn env

end Tortoise
