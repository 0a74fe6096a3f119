import Tortoise.Proofs.Compile.Layout
import Tortoise.Proofs.Machine.Env
import Tortoise.Proofs.Machine.Snapshot

/-!
# The machine follows the body

A machine that stands at the start of the code of a body, wherever that is placed, follows the
execution of the body: it reports the same events, and when the body is done the machine stands
behind the code with the same visible variables. The counters of the repeat blocks around are as
they were. While the clock of the execution runs out, the machine makes at least as many steps.
-/

namespace Tortoise

open Opening (counter)

theorem eval_test (negated : Bool) (cond : Expr) (f : Valuation) :
    (((Opening.test negated cond).eval f).1 != 0) = (((cond.eval f).1 != 0) != negated) ∧
      ((Opening.test negated cond).eval f).2 = (cond.eval f).2 := by
  cases negated with
  | false => simp [Opening.test]
  | true =>
      refine ⟨?_, rfl⟩
      by_cases hzero : (cond.eval f).1 = 0
      · simp [Opening.test, Expr.eval, hzero, truth]
      · simp [Opening.test, Expr.eval, hzero, truth]

theorem toNat_eq_zero_iff {v : Int64} : v.toInt.toNat = 0 ↔ ¬ v > 0 := by
  have h : (0 : Int64) < v ↔ (0 : Int64).toInt < v.toInt := Int64.lt_iff_toInt_lt
  rw [gt_iff_lt, h, Int64.toInt_zero]
  omega

theorem toNat_sub_one {v : Int64} {n : Nat} (h : v.toInt.toNat = n + 1) :
    (v - 1).toInt.toNat = n := by
  have hle := Int64.toInt_lt v
  have hsub : (v - 1).toInt = v.toInt - 1 := by
    rw [Int64.toInt_sub, Int64.toInt_one]
    rw [Int.bmod_eq_of_le] <;> omega
  omega

namespace Snapshot

def Sees (x : Snapshot) (env : Env) : Prop := x.env.visible = env.entries

def Keeps (depth : Nat) (x y : Snapshot) : Prop :=
  ∀ j < depth, y.env.get? (counter j) = x.env.get? (counter j)

/-- The machine follows a trace up to the index `stop`, or makes `least` steps at least. -/
def Follows (program : Program) (least : Nat) (x : Snapshot) (t : Trace) (stop depth : Nat) :
    Prop :=
  ∃ n y, x.go program n = y ∧ y.log = x.log ++ t.events ∧
    (∀ env, t.final = some env → y.pc = stop ∧ y.Sees env ∧ Keeps depth x y) ∧
    (t.final = none → least ≤ n ∧ y.pc < program.size)

variable {program : Program} {least depth stop : Nat} {x y : Snapshot} {t : Trace} {env : Env}

theorem Keeps.refl (depth : Nat) (x : Snapshot) : Keeps depth x x := fun _ _ => rfl

theorem Keeps.trans {z : Snapshot} (hxy : Keeps depth x y) (hyz : Keeps depth y z) :
    Keeps depth x z := fun j hj => (hyz j hj).trans (hxy j hj)

theorem Keeps.mono {more : Nat} (h : Keeps more x y) (hle : depth ≤ more) : Keeps depth x y :=
  fun j hj => h j (by omega)

theorem follows_here (hsees : x.Sees env) (hpc : x.pc = stop) :
    Follows program least x ⟨[], some env⟩ stop depth := by
  refine ⟨0, x, rfl, by simp, ?_, by simp⟩
  rintro _ ⟨rfl⟩
  exact ⟨hpc, hsees, .refl depth x⟩

theorem Follows.weaken {less : Nat} (h : Follows program least x t stop depth)
    (hle : less ≤ least) : Follows program less x t stop depth := by
  obtain ⟨n, y, hgo, hlog, hsome, hnone⟩ := h
  refine ⟨n, y, hgo, hlog, hsome, fun ht => ?_⟩
  obtain ⟨hn, hpc⟩ := hnone ht
  exact ⟨by omega, hpc⟩

theorem Follows.andThen {f : Env → Trace} {mid more : Nat}
    (h : Follows program least x t mid more) (hdepth : depth ≤ more)
    (hf : ∀ env y, t.final = some env → y.pc = mid → y.Sees env → Keeps more x y →
      Follows program least y (f env) stop depth) :
    Follows program least x (t.andThen f) stop depth := by
  obtain ⟨n, y, hgo, hlog, hsome, hnone⟩ := h
  cases hfinal : t.final with
  | none =>
      rw [Trace.andThen_of_none hfinal]
      exact ⟨n, y, hgo, hlog, by simp [hfinal], hnone⟩
  | some env =>
      rw [Trace.andThen_of_final hfinal]
      obtain ⟨hpc, hsees, hkeeps⟩ := hsome env hfinal
      obtain ⟨n', z, hgo', hlog', hsome', hnone'⟩ := hf env y hfinal hpc hsees hkeeps
      refine ⟨n + n', z, ?_, ?_, ?_, ?_⟩
      · rw [go_add, hgo, hgo']
      · rw [hlog', hlog, List.append_assoc]
      · intro env' henv'
        obtain ⟨hpc', hsees', hkeeps'⟩ := hsome' env' henv'
        exact ⟨hpc', hsees', (hkeeps.mono hdepth).trans hkeeps'⟩
      · intro ht
        obtain ⟨hn, hz⟩ := hnone' ht
        exact ⟨by omega, hz⟩

/-- A silent step at the end, whatever the variables are. -/
theorem Follows.then_silent {mid : Nat} (h : Follows program least x t mid depth)
    (hstep : ∀ (z : Snapshot) env, z.pc = mid → z.Sees env →
      (z.next program).pc = stop ∧ (z.next program).Sees env ∧ (z.next program).log = z.log ∧
        Keeps depth z (z.next program)) :
    Follows program least x t stop depth := by
  obtain ⟨n, y, hgo, hlog, hsome, hnone⟩ := h
  cases hfinal : t.final with
  | none => exact ⟨n, y, hgo, hlog, by simp [hfinal], hnone⟩
  | some env =>
      obtain ⟨hpc, hsees, hkeeps⟩ := hsome env hfinal
      obtain ⟨hpc', hsees', hlog', hkeeps'⟩ := hstep y env hpc hsees
      refine ⟨n + 1, y.next program, ?_, hlog'.trans hlog, ?_, by simp [hfinal]⟩
      · rw [go_add, hgo]
        rfl
      · intro env' henv'
        obtain rfl := Option.some.inj (hfinal.symm.trans henv')
        exact ⟨hpc', hsees', hkeeps.trans hkeeps'⟩

theorem Follows.after_step {events : List Event} (h : Follows program least y t stop depth)
    (hnext : x.next program = y) (hlog : y.log = x.log ++ events) (hkeeps : Keeps depth x y) :
    Follows program (least + 1) x (t.prepend events) stop depth := by
  obtain ⟨n, z, hgo, hlog', hsome, hnone⟩ := h
  refine ⟨n + 1, z, ?_, ?_, ?_, ?_⟩
  · rw [go, hnext, hgo]
  · rw [hlog', hlog, List.append_assoc, Trace.prepend]
  · intro env henv
    obtain ⟨hpc, hsees, hkeeps'⟩ := hsome env henv
    exact ⟨hpc, hsees, hkeeps.trans hkeeps'⟩
  · intro ht
    obtain ⟨hn, hz⟩ := hnone ht
    exact ⟨by omega, hz⟩

theorem Follows.after_silent (h : Follows program least y t stop depth)
    (hnext : x.next program = y) (hlog : y.log = x.log) (hkeeps : Keeps depth x y) :
    Follows program least x t stop depth := by
  have hlog' : y.log = x.log ++ [] := by rw [hlog, List.append_nil]
  exact (h.after_step hnext hlog' hkeeps).weaken (Nat.le_succ least)

theorem Sees.eval_eq (hsees : x.Sees env) {e : Expr} (he : e.Plain) :
    e.eval x.env.get? = e.eval env.get? := by
  apply he.eval_congr
  intro name hname
  rw [Env.get?_eq_lookup_visible _ hname, hsees]
  rfl

theorem Sees.set (hsees : x.Sees env) {name : Text} (hname : name.isIdentifier = true)
    (value : Int64) : (x.env.set name value).visible = (env.set name value).entries := by
  rw [Env.visible_set _ (isHidden_of_isIdentifier hname), hsees]
  rfl

theorem next_assign {name : Text} {e : Expr} (h : program[x.pc]? = some (.assign name e)) :
    x.next program = ⟨x.pc + 1, x.env.set name (e.eval x.env.get?).1,
      x.log ++ (e.eval x.env.get?).2.map Fault.event⟩ := by
  simp [next, h, after, Instruction.assign]

theorem next_jump {target : Nat} (h : program[x.pc]? = some (.jump target)) :
    x.next program = ⟨target, x.env, x.log⟩ := by
  simp [next, h, after, Instruction.jump]

theorem next_branch {cond : Expr} {yes no : Nat}
    (h : program[x.pc]? = some (.branch cond yes no)) :
    x.next program = ⟨if (cond.eval x.env.get?).1 != 0 then yes else no, x.env,
      x.log ++ (cond.eval x.env.get?).2.map Fault.event⟩ := by
  simp [next, h, after, Instruction.branch]

theorem next_act {action : Action} {e : Expr} (h : program[x.pc]? = some (.act action e)) :
    x.next program = ⟨x.pc + 1, x.env, x.log ++ (e.eval x.env.get?).2.map Fault.event ++
      [.action action (e.eval x.env.get?).1]⟩ := by
  simp [next, h, after, Instruction.act, Action.ofCode?_code]

theorem next_unset {name : Text} (h : program[x.pc]? = some (.unset name)) :
    x.next program = ⟨x.pc + 1, x.env.erase name, x.log⟩ := by
  simp [next, h, after, Instruction.unset]

theorem keeps_set {name : Text} (hname : name.isIdentifier = true) (value : Int64) {pc : Nat}
    {log : List Event} : Keeps depth x ⟨pc, x.env.set name value, log⟩ := by
  intro j _
  apply Env.get?_set_of_ne
  intro heq
  have hhidden := Opening.isHidden_counter j
  rw [heq, isHidden_of_isIdentifier hname] at hhidden
  simp at hhidden

theorem keeps_set_counter (value : Int64) {pc : Nat} {log : List Event} :
    Keeps depth x ⟨pc, x.env.set (counter depth) value, log⟩ := by
  intro j hj
  apply Env.get?_set_of_ne
  intro heq
  have hdepth := Opening.counter_inj heq
  omega

theorem keeps_erase_counter {pc : Nat} {log : List Event} :
    Keeps depth x ⟨pc, x.env.erase (counter depth), log⟩ := by
  intro j hj
  apply Env.get?_erase_of_ne
  intro heq
  have hdepth := Opening.counter_inj heq
  omega

theorem follows_assign {name : Text} {e : Expr} (hname : name.isIdentifier = true) (he : e.Plain)
    (hins : program[x.pc]? = some (.assign name e)) (hsees : x.Sees env) :
    Follows program least x (.assign name e env) (x.pc + 1) depth := by
  have hnext := next_assign hins
  rw [hsees.eval_eq he] at hnext
  have hhere : Follows program least
      ⟨x.pc + 1, x.env.set name (e.eval env.get?).1,
        x.log ++ (e.eval env.get?).2.map Fault.event⟩
      ⟨[], some (env.set name (e.eval env.get?).1)⟩ (x.pc + 1) depth :=
    follows_here (hsees.set hname _) rfl
  exact (hhere.after_step hnext rfl (keeps_set hname _)).weaken (Nat.le_succ least)

theorem follows_simple {statement : Simple} (hplain : statement.Plain)
    (hins : program[x.pc]? = some statement.instruction) (hsees : x.Sees env) :
    Follows program least x (statement.run env) (x.pc + 1) depth := by
  cases statement with
  | assign name value => exact follows_assign hplain.1 hplain.2 hins hsees
  | increment name => exact follows_assign hplain ⟨rfl, hplain, trivial⟩ hins hsees
  | decrement name => exact follows_assign hplain ⟨rfl, hplain, trivial⟩ hins hsees
  | act action argument =>
      have hnext := next_act hins
      rw [hsees.eval_eq hplain, List.append_assoc] at hnext
      have hhere : Follows program least
          ⟨x.pc + 1, x.env, x.log ++ ((argument.eval env.get?).2.map Fault.event ++
            [.action action (argument.eval env.get?).1])⟩
          ⟨[], some env⟩ (x.pc + 1) depth := follows_here hsees rfl
      have hstep := (hhere.after_step hnext rfl (.refl depth x)).weaken (Nat.le_succ least)
      rw [Trace.prepend, List.append_nil] at hstep
      exact hstep

theorem lt_size_of_getElem? {b : Nat} {ins : Instruction} (h : program[b]? = some ins) :
    b < program.size := (Array.getElem?_eq_some_iff.1 h).1

/-- The step of a branch, and the way on from its place. -/
theorem follows_branch {cond : Expr} {yes no : Nat} (hcond : cond.Plain)
    (hins : program[x.pc]? = some (.branch cond yes no)) (hsees : x.Sees env)
    (hrest : ∀ y : Snapshot,
      y.pc = (if (cond.eval env.get?).1 != 0 then yes else no) → y.env = x.env →
      Follows program least y t stop depth) :
    Follows program (least + 1) x (t.prepend ((cond.eval env.get?).2.map Fault.event)) stop
      depth := by
  have hnext := next_branch hins
  rw [hsees.eval_eq hcond] at hnext
  have hfollows := hrest ⟨if (cond.eval env.get?).1 != 0 then yes else no, x.env,
    x.log ++ (cond.eval env.get?).2.map Fault.event⟩ rfl rfl
  exact hfollows.after_step hnext rfl (fun _ _ => rfl)

theorem follows_loop {negated : Bool} {cond : Expr} {round : Env → Trace} {b size clock n : Nat}
    (hcond : cond.Plain)
    (hbranch : program[b]? = some (.branch (Opening.test negated cond) (b + 1 : Nat)
      (b + 2 + size : Nat)))
    (hjump : program[b + 1 + size]? = some (.jump b))
    (hround : ∀ (x : Snapshot) env, x.pc = b + 1 → x.Sees env →
      Follows program clock x (round env) (b + 1 + size) depth)
    (hn : n ≤ clock) (hpc : x.pc = b) (hsees : x.Sees env) :
    Follows program n x (.loop negated cond round n env) (b + 2 + size) depth := by
  induction n generalizing x env with
  | zero =>
      refine ⟨0, x, rfl, by simp [Trace.loop], by simp [Trace.loop], fun _ => ⟨Nat.le_refl 0, ?_⟩⟩
      rw [hpc]
      exact lt_size_of_getElem? hbranch
  | succ n ih =>
      obtain ⟨htest, hfaults⟩ := eval_test negated cond env.get?
      have hins : program[x.pc]? = some (.branch (Opening.test negated cond) (b + 1 : Nat)
          (b + 2 + size : Nat)) := by
        rw [hpc]
        exact hbranch
      by_cases hstop : ((cond.eval env.get?).1 != 0) = negated
      · rw [Trace.loop_of_eq hstop]
        have hgo : Follows program (n + 1) x
            (Trace.prepend (((Opening.test negated cond).eval env.get?).2.map Fault.event)
              ⟨[], some env⟩) (b + 2 + size) depth := by
          refine follows_branch (hcond.test negated) hins hsees fun y hy henv => ?_
          refine follows_here (by rw [Sees, henv]; exact hsees) ?_
          rw [hy, htest, hstop]
          simp
        rw [hfaults, Trace.prepend, List.append_nil] at hgo
        exact hgo
      · rw [Trace.loop_of_ne hstop]
        have hgo : Follows program (n + 1) x
            (Trace.prepend (((Opening.test negated cond).eval env.get?).2.map Fault.event)
              ((round env).andThen (.loop negated cond round n))) (b + 2 + size) depth := by
          refine follows_branch (hcond.test negated) hins hsees fun y hy henv => ?_
          rw [htest, if_pos (by simpa using hstop)] at hy
          have hbody := hround y env hy (by rw [Sees, henv]; exact hsees)
          refine (hbody.weaken (by omega)).andThen (Nat.le_refl depth) ?_
          intro env' z _ hz hzsees _
          rw [← hz] at hjump
          have hback := ih (x := ⟨b, z.env, z.log⟩) (by omega) rfl hzsees
          exact hback.after_silent (next_jump hjump) rfl (fun _ _ => rfl)
        rwa [hfaults] at hgo

/-- The rounds of a repeat block, from its branch at the index `b`. -/
theorem follows_times {round : Env → Trace} {b size clock : Nat} {v : Int64}
    (hbranch : program[b]? = some (.branch (.binary .greater (.var (counter depth)) (.literal 0))
      (b + 1 : Nat) (b + 3 + size : Nat)))
    (hassign : program[b + 1 + size]? = some (.assign (counter depth)
      (.binary .sub (.var (counter depth)) (.literal 1))))
    (hjump : program[b + 1 + size + 1]? = some (.jump b))
    (hround : ∀ (x : Snapshot) env, x.pc = b + 1 → x.Sees env →
      Follows program clock x (round env) (b + 1 + size) (depth + 1))
    (hpc : x.pc = b) (hsees : x.Sees env) (hv : x.env.get? (counter depth) = some v) :
    Follows program clock x (.times round v.toInt.toNat env) (b + 3 + size) depth := by
  generalize hcount : v.toInt.toNat = count
  have hnext : ∀ {x : Snapshot} {v : Int64}, x.pc = b → x.env.get? (counter depth) = some v →
      x.next program = ⟨if v > 0 then b + 1 else b + 3 + size, x.env, x.log⟩ := by
    intro x v hpc hv
    rw [← hpc] at hbranch
    rw [next_branch hbranch, (eval_counting hv).1]
    by_cases hpos : v > 0 <;> simp [truth, hpos, hpc]
  induction count generalizing x env v with
  | zero =>
      have hstep := hnext hpc hv
      rw [if_neg (toNat_eq_zero_iff.1 hcount)] at hstep
      have hhere : Follows program clock ⟨b + 3 + size, x.env, x.log⟩ ⟨[], some env⟩
          (b + 3 + size) depth := follows_here hsees rfl
      exact hhere.after_silent hstep rfl (fun _ _ => rfl)
  | succ count ih =>
      have hpos : v > 0 := by
        refine Decidable.by_contra fun hnot => ?_
        rw [toNat_eq_zero_iff.2 hnot] at hcount
        omega
      have hstep := hnext hpc hv
      rw [if_pos hpos] at hstep
      have hbody := hround ⟨b + 1, x.env, x.log⟩ env rfl hsees
      have hrest : Follows program clock ⟨b + 1, x.env, x.log⟩
          ((round env).andThen (.times round count)) (b + 3 + size) depth := by
        refine hbody.andThen (Nat.le_succ depth) ?_
        intro env' y _ hy hysees hkeeps
        have hyv : y.env.get? (counter depth) = some v :=
          (hkeeps depth (Nat.lt_succ_self depth)).trans hv
        rw [← hy] at hassign hjump
        have hless := next_assign hassign
        simp only [(eval_counting hyv).2, List.map_nil, List.append_nil] at hless
        have hback := ih (x := ⟨b, y.env.set (counter depth) (v - 1), y.log⟩) rfl
          ((Env.visible_set_of_hidden _ (Opening.isHidden_counter depth)).trans hysees)
          (Env.get?_set_self _) (toNat_sub_one hcount)
        have hagain : Follows program clock
            ⟨y.pc + 1, y.env.set (counter depth) (v - 1), y.log⟩ (.times round count env')
            (b + 3 + size) depth :=
          hback.after_silent (next_jump hjump) rfl (fun _ _ => rfl)
        exact hagain.after_silent hless rfl (keeps_set_counter _)
      exact hrest.after_silent hstep rfl (fun _ _ => rfl)

/-- The two arms of a branch meet again. -/
theorem follows_arms {cond : Expr} {b yes no : Nat} {first second : Trace} (hcond : cond.Plain)
    (hbranch : program[b]? = some (.branch cond yes no))
    (hyes : ∀ y : Snapshot, y.pc = yes → y.Sees env → Follows program least y first stop depth)
    (hno : ∀ y : Snapshot, y.pc = no → y.Sees env → Follows program least y second stop depth)
    (hpc : x.pc = b) (hsees : x.Sees env) :
    Follows program least x (Trace.prepend ((cond.eval env.get?).2.map Fault.event)
      (if (cond.eval env.get?).1 != 0 then first else second)) stop depth := by
  rw [← hpc] at hbranch
  refine Follows.weaken ?_ (Nat.le_succ least)
  refine follows_branch hcond hbranch hsees fun y hy henv => ?_
  have hysees : y.Sees env := by rw [Sees, henv]; exact hsees
  by_cases htrue : ((cond.eval env.get?).1 != 0) = true
  · rw [if_pos htrue] at hy ⊢
    exact hyes y hy hysees
  · rw [if_neg htrue] at hy ⊢
    exact hno y hy hysees

/-- A repeat block: its count is stored, its rounds are made and its counter is forgotten. -/
theorem follows_repeatLoop {count : Expr} {round : Env → Trace} {b size clock : Nat}
    (hcount : count.Plain)
    (hassign : program[b]? = some (.assign (counter depth) count))
    (hbranch : program[b + 1]? = some (.branch
      (.binary .greater (.var (counter depth)) (.literal 0)) (b + 2 : Nat) (b + 4 + size : Nat)))
    (hless : program[b + 1 + 1 + size]? = some (.assign (counter depth)
      (.binary .sub (.var (counter depth)) (.literal 1))))
    (hjump : program[b + 1 + 1 + size + 1]? = some (.jump (b + 1 : Nat)))
    (hunset : program[b + 1 + 1 + size + 1 + 1]? = some (.unset (counter depth)))
    (hround : ∀ (x : Snapshot) env, x.pc = b + 2 → x.Sees env →
      Follows program clock x (round env) (b + 2 + size) (depth + 1))
    (hpc : x.pc = b) (hsees : x.Sees env) :
    Follows program clock x (Trace.prepend ((count.eval env.get?).2.map Fault.event)
      (.times round (count.eval env.get?).1.toInt.toNat env)) (b + 5 + size) depth := by
  have hend : b + 4 + size = b + 1 + 3 + size := by omega
  rw [hend] at hbranch
  have hrounds : Follows program clock
      ⟨b + 1, x.env.set (counter depth) (count.eval env.get?).1,
        x.log ++ (count.eval env.get?).2.map Fault.event⟩
      (.times round (count.eval env.get?).1.toInt.toNat env) (b + 1 + 3 + size) depth :=
    follows_times hbranch hless hjump hround rfl
      ((Env.visible_set_of_hidden _ (Opening.isHidden_counter depth)).trans hsees)
      (Env.get?_set_self _)
  have hclosed : Follows program clock
      ⟨b + 1, x.env.set (counter depth) (count.eval env.get?).1,
        x.log ++ (count.eval env.get?).2.map Fault.event⟩
      (.times round (count.eval env.get?).1.toInt.toNat env) (b + 5 + size) depth := by
    refine hrounds.then_silent fun z env hz hzsees => ?_
    have hins : program[z.pc]? = some (.unset (counter depth)) := by
      rw [hz, ← hunset]
      congr 1
      omega
    rw [next_unset hins]
    refine ⟨?_, ?_, rfl, keeps_erase_counter⟩
    · change z.pc + 1 = _
      omega
    · exact (Env.visible_erase_of_hidden _ (Opening.isHidden_counter depth)).trans hzsees
  rw [← hpc] at hassign
  have hnext := next_assign hassign
  rw [hsees.eval_eq hcount] at hnext
  refine (hclosed.after_step ?_ rfl (keeps_set_counter _)).weaken (Nat.le_succ clock)
  rw [hnext, hpc]

/-- A block follows if its inner code does. -/
theorem follows_opening (clock : Nat) {opening : Opening} (hplain : opening.Plain)
    {inner : Env → Trace} {code : List Instruction} {b : Nat}
    (hcode : CodeAt program b (opening.wrap b depth code))
    (hinner : ∀ (x : Snapshot) env, x.pc = b + opening.lead → x.Sees env →
      Follows program clock x (inner env) (b + opening.lead + code.length) (opening.deepen depth))
    (hpc : x.pc = b) (hsees : x.Sees env) :
    Follows program clock x (opening.run clock inner env)
      (b + (opening.lead + code.length + opening.trail)) depth := by
  cases opening with
  | ifThen cond =>
      obtain ⟨hbranch, _⟩ := placed_cons.1 hcode
      have hstop : b + (1 + code.length + 0) = b + 1 + code.length := by omega
      simp only [Opening.lead, Opening.trail, hstop]
      exact follows_arms hplain hbranch (fun y hy hysees => hinner y env hy hysees)
        (fun y hy hysees => follows_here hysees hy) hpc hsees
  | loop negated cond =>
      obtain ⟨hbranch, hrest⟩ := placed_cons.1 hcode
      obtain ⟨hjump, _⟩ := placed_cons.1 (placed_append.1 hrest).2
      have hstop : b + (1 + code.length + 1) = b + 2 + code.length := by omega
      simp only [Opening.lead, Opening.trail, hstop]
      exact follows_loop hplain hbranch hjump hinner (Nat.le_refl clock) hpc hsees
  | repeatLoop count =>
      obtain ⟨hassign, hrest⟩ := placed_cons.1 hcode
      obtain ⟨hbranch, hrest⟩ := placed_cons.1 hrest
      obtain ⟨hless, hrest⟩ := placed_cons.1 (placed_append.1 hrest).2
      obtain ⟨hjump, hrest⟩ := placed_cons.1 hrest
      obtain ⟨hunset, _⟩ := placed_cons.1 hrest
      have hstop : b + (2 + code.length + 3) = b + 5 + code.length := by omega
      simp only [Opening.lead, Opening.trail, hstop]
      exact follows_repeatLoop hplain hassign hbranch hless hjump hunset hinner hpc hsees

/-- The machine follows a body whose code stands in its program. -/
theorem follows_body {body : Body} (hplain : body.Plain) (clock : Nat) {b : Nat}
    (hcode : CodeAt program b (body.code b depth)) (hpc : x.pc = b) (hsees : x.Sees env) :
    Follows program clock x (body.run clock env) (b + body.size) depth := by
  induction body generalizing x env b depth with
  | done => exact follows_here hsees hpc
  | simple statement next ih =>
      obtain ⟨hins, hrest⟩ := placed_cons.1 hcode
      rw [← hpc] at hins
      refine (follows_simple hplain.1 hins hsees).andThen (Nat.le_refl depth) ?_
      intro env' y _ hy hysees _
      rw [hpc] at hy
      have hnext := ih hplain.2 hrest hy hysees
      rwa [Nat.add_assoc] at hnext
  | block opening inner next ihi ihn =>
      obtain ⟨hblock, hrest⟩ := placed_append.1 hcode
      rw [Opening.length_wrap, Body.length_code] at hrest
      have hopening := follows_opening clock hplain.1 hblock
        (fun y env hy hysees => by
          have hinner := ihi hplain.2.1 (Placed.of_wrap hblock) hy hysees
          rwa [Body.length_code]) hpc hsees
      rw [Body.length_code] at hopening
      refine hopening.andThen (Nat.le_refl depth) ?_
      intro env' y _ hy hysees _
      have hnext := ihn hplain.2.2 hrest hy hysees
      rwa [Nat.add_assoc] at hnext
  | ifElse cond yes no next ihy ihn ihx =>
      obtain ⟨hbranch, hrest⟩ := placed_cons.1 hcode
      obtain ⟨hyes, hrest⟩ := placed_append.1 hrest
      obtain ⟨hjump, hrest⟩ := placed_cons.1 hrest
      obtain ⟨hno, hrest⟩ := placed_append.1 hrest
      rw [Body.length_code] at hjump hno hrest
      rw [Body.length_code] at hrest
      have harms : Follows program clock x
          (Trace.prepend ((cond.eval env.get?).2.map Fault.event)
            (if (cond.eval env.get?).1 != 0 then yes.run clock env else no.run clock env))
          (b + 1 + yes.size + 1 + no.size) depth := by
        refine follows_arms hplain.1 hbranch (fun y hy hysees => ?_)
          (fun y hy hysees => ihn hplain.2.2.1 hno hy hysees) hpc hsees
        refine (ihy hplain.2.1 hyes hy hysees).then_silent fun z env' hz hzsees => ?_
        rw [← hz] at hjump
        rw [next_jump hjump]
        exact ⟨by rw [hz], hzsees, rfl, fun _ _ => rfl⟩
      refine harms.andThen (Nat.le_refl depth) fun env' y _ hy hysees _ => ?_
      have hnext := ihx hplain.2.2.2 hrest hy hysees
      have hstop : b + 1 + yes.size + 1 + no.size + next.size =
          b + (1 + yes.size + 1 + no.size + next.size) := by omega
      rwa [hstop] at hnext

end Snapshot

end Tortoise
