import Mathlib.Data.Nat.Count
import Tortoise.Proofs.Machine.Course
import Tortoise.Proofs.Machine.Simulation

/-!
# Counted loops

A program without while and until loops always halts. Its code still jumps back, but only from the
end of a repeat block to its test, and the counter that is tested there belongs to the block: what
is inside leaves it alone. So every entry to a block makes as many rounds as the count was worth on
entry, whatever the rounds do to the variables of the count.
-/

namespace Tortoise

open Opening (counter)

def Opening.Counted : Opening → Prop
  | loop _ _ => False
  | _ => True

def Body.Counted : Body → Prop
  | done => True
  | simple _ next => next.Counted
  | block opening inner next => opening.Counted ∧ inner.Counted ∧ next.Counted
  | ifElse _ yes no next => yes.Counted ∧ no.Counted ∧ next.Counted

namespace Snapshot

variable {program : Program} {x : Snapshot}

def visits (program : Program) (x : Snapshot) (i n : Nat) : Nat :=
  Nat.count (fun k => (x.go program k).pc = i) n

theorem visits_add (i m n : Nat) :
    x.visits program i (m + n) =
      x.visits program i m + (x.go program m).visits program i n := by
  unfold visits
  rw [Nat.count_add]
  simp only [go_add]

theorem visits_one (i : Nat) : x.visits program i 1 = if x.pc = i then 1 else 0 := by
  unfold visits
  rw [Nat.count_one]
  rfl

theorem visits_eq_zero {i n : Nat} (h : ∀ k < n, (x.go program k).pc ≠ i) :
    x.visits program i n = 0 :=
  Nat.count_of_forall_not h

/-- In `n` steps the machine comes from the index `low` to the index `high`. On its way it is
strictly between the two, and at its end the counters of the outer blocks are the same. -/
structure Traverses (program : Program) (low high depth : Nat) (x : Snapshot) (n : Nat) :
    Prop where
  starts : x.pc = low
  arrives : (x.go program n).pc = high
  forward : n = 0 ∨ low < high
  between : ∀ k, 0 < k → k < n → low < (x.go program k).pc ∧ (x.go program k).pc < high
  keeps : Keeps depth x (x.go program n)

namespace Traverses

variable {low mid high depth more n m : Nat}

theorem here (depth : Nat) (hpc : x.pc = low) : Traverses program low low depth x 0 :=
  ⟨hpc, hpc, Or.inl rfl, fun _ _ hk => absurd hk (Nat.not_lt_zero _), .refl depth x⟩

theorem step (hpc : x.pc = low) (hnext : (x.next program).pc = high) (hlt : low < high)
    (hkeeps : Keeps depth x (x.next program)) : Traverses program low high depth x 1 :=
  ⟨hpc, hnext, Or.inr hlt, fun _ _ _ => by omega, hkeeps⟩

theorem eq_of_zero (h : Traverses program low high depth x 0) : low = high :=
  h.starts.symm.trans h.arrives

theorem low_le_high (h : Traverses program low high depth x n) : low ≤ high := by
  rcases h.forward with rfl | hlt
  · exact Nat.le_of_eq h.eq_of_zero
  · exact Nat.le_of_lt hlt

theorem append (h : Traverses program low mid more x n)
    (h' : Traverses program mid high depth (x.go program n) m) (hdepth : depth ≤ more) :
    Traverses program low high depth x (n + m) := by
  have hle := h.low_le_high
  have hle' := h'.low_le_high
  refine ⟨h.starts, ?_, ?_, ?_, ?_⟩
  · rw [go_add]
    exact h'.arrives
  · rcases h.forward with rfl | hlt
    · rcases h'.forward with rfl | hlt'
      · exact Or.inl rfl
      · exact Or.inr (by omega)
    · exact Or.inr (by omega)
  · intro k hpos hk
    have hlow : 0 < n → low < mid := fun hn => h.forward.resolve_left (by omega)
    have hhigh : 0 < m → mid < high := fun hm => h'.forward.resolve_left (by omega)
    rcases Nat.lt_trichotomy k n with hkn | rfl | hkn
    · obtain ⟨hl, hh⟩ := h.between k hpos hkn
      exact ⟨hl, by omega⟩
    · rw [h.arrives]
      exact ⟨hlow hpos, hhigh (by omega)⟩
    · obtain ⟨j, rfl⟩ := Nat.exists_eq_add_of_lt hkn
      rw [Nat.add_assoc, go_add]
      obtain ⟨hl, hh⟩ := h'.between (j + 1) (by omega) (by omega)
      exact ⟨by omega, hh⟩
  · rw [go_add]
    exact (h.keeps.mono hdepth).trans h'.keeps

theorem low_le_pc (h : Traverses program low high depth x n) {k : Nat} (hk : k < n) :
    low ≤ (x.go program k).pc ∧ (x.go program k).pc < high := by
  rcases Nat.eq_zero_or_pos k with rfl | hpos
  · have hlt := h.forward.resolve_left (by omega)
    have hstart : (x.go program 0).pc = low := h.starts
    omega
  · obtain ⟨hl, hh⟩ := h.between k hpos hk
    exact ⟨by omega, hh⟩

theorem visits_high (h : Traverses program low high depth x n) :
    x.visits program high n = 0 :=
  visits_eq_zero fun k hk => by have := (h.low_le_pc hk).2; omega

/-- The way starts at its first index and does not come back to it. -/
theorem visits_low (h : Traverses program low high depth x n) :
    x.visits program low n = if low < high then 1 else 0 := by
  cases n with
  | zero =>
      have hnot : ¬ low < high := by have := h.eq_of_zero; omega
      rw [if_neg hnot]
      exact Nat.count_zero _
  | succ n =>
      have hlater : (x.go program 1).visits program low n = 0 := by
        refine visits_eq_zero fun k hk => ?_
        rw [← go_add]
        have hpc := (h.between (1 + k) (by omega) (by omega)).1
        omega
      rw [Nat.add_comm, visits_add, visits_one, if_pos h.starts, hlater,
        if_pos (h.forward.resolve_left (by omega))]

end Traverses

structure RepeatAt (program : Program) (b size depth : Nat) (count : Expr) : Prop where
  store : program[b]? = some (.assign (counter depth) count)
  test : program[b + 1]? = some (.branch (.binary .greater (.var (counter depth)) (.literal 0))
    (b + 2 : Nat) (b + 4 + size : Nat))
  less : program[b + 2 + size]? =
    some (.assign (counter depth) (.binary .sub (.var (counter depth)) (.literal 1)))
  back : program[b + 3 + size]? = some (.jump (b + 1 : Nat))
  forget : program[b + 4 + size]? = some (.unset (counter depth))

theorem repeatAt_of_codeAt {b depth : Nat} {count : Expr} {inner : List Instruction}
    (h : CodeAt program b ((Opening.repeatLoop count).wrap b depth inner)) :
    RepeatAt program b inner.length depth count := by
  obtain ⟨hstore, hrest⟩ := placed_cons.1 h
  obtain ⟨htest, hrest⟩ := placed_cons.1 hrest
  obtain ⟨hless, hrest⟩ := placed_cons.1 (placed_append.1 hrest).2
  obtain ⟨hback, hrest⟩ := placed_cons.1 hrest
  obtain ⟨hforget, _⟩ := placed_cons.1 hrest
  refine ⟨hstore, htest, hless, ?_, ?_⟩
  · rw [← hback]
    congr 1
    omega
  · rw [← hforget]
    congr 1
    omega

structure Rounds (program : Program) (b size depth : Nat) (x : Snapshot) (count n : Nat) :
    Prop where
  inside : ∀ k < n, b < (x.go program k).pc ∧ (x.go program k).pc < b + 4 + size
  begun : x.visits program (b + 2) n = count
  ended : x.visits program (b + 2 + size) n = count
  keeps : Keeps depth x (x.go program n)

section Block

variable {b size depth : Nat} {count : Expr}

theorem Rounds.append {c c' n n' : Nat} (h : Rounds program b size depth x c n)
    (h' : Rounds program b size depth (x.go program n) c' n') :
    Rounds program b size depth x (c + c') (n + n') := by
  refine ⟨?_, ?_, ?_, ?_⟩
  · intro k hk
    by_cases hkn : k < n
    · exact h.inside k hkn
    · obtain ⟨j, rfl⟩ := Nat.exists_eq_add_of_le (Nat.not_lt.1 hkn)
      rw [go_add]
      exact h'.inside j (by omega)
  · rw [visits_add, h.begun, h'.begun]
  · rw [visits_add, h.ended, h'.ended]
  · rw [go_add]
    exact h.keeps.trans h'.keeps

/-- A step that neither begins nor ends a round. -/
theorem rounds_step (hlow : b < x.pc) (hhigh : x.pc < b + 4 + size) (hfirst : x.pc ≠ b + 2)
    (hlast : x.pc ≠ b + 2 + size) (hkeeps : Keeps depth x (x.next program)) :
    Rounds program b size depth x 0 1 := by
  refine ⟨?_, ?_, ?_, hkeeps⟩
  · intro k hk
    obtain rfl : k = 0 := by omega
    exact ⟨hlow, hhigh⟩
  · rw [visits_one, if_neg hfirst]
  · rw [visits_one, if_neg hlast]

theorem next_test (hblock : RepeatAt program b size depth count) (hpc : x.pc = b + 1) {v : Int64}
    (hv : x.env.get? (counter depth) = some v) :
    x.next program = ⟨if v > 0 then b + 2 else b + 4 + size, x.env, x.log⟩ := by
  have htest := hblock.test
  rw [← hpc] at htest
  rw [next_branch htest, (eval_counting hv).1]
  by_cases hpos : v > 0 <;> simp [truth, hpos]

/-- What is inside is traversed, the counter goes down and the machine is back at the test. -/
theorem exists_round (hblock : RepeatAt program b size depth count)
    (hinner : ∀ y : Snapshot, y.pc = b + 2 →
      ∃ n, Traverses program (b + 2) (b + 2 + size) (depth + 1) y n)
    (hpc : x.pc = b + 1) {v : Int64} (hv : x.env.get? (counter depth) = some v) (hpos : v > 0) :
    ∃ n, (x.go program n).pc = b + 1 ∧
      (x.go program n).env.get? (counter depth) = some (v - 1) ∧
      Rounds program b size depth x 1 n := by
  have hnext := next_test hblock hpc hv
  rw [if_pos hpos] at hnext
  have hentry : (x.go program 1).pc = b + 2 := congrArg Snapshot.pc hnext
  obtain ⟨n, hway⟩ := hinner (x.go program 1) hentry
  have hkeep : (x.go program 1).env.get? (counter depth) = some v := by
    rw [← hv]
    exact congrArg (fun y => y.env.get? (counter depth)) hnext
  obtain ⟨y, hy⟩ : ∃ y, (x.go program 1).go program n = y := ⟨_, rfl⟩
  have hypc : y.pc = b + 2 + size := by rw [← hy]; exact hway.arrives
  have hyv : y.env.get? (counter depth) = some v := by
    rw [← hy, hway.keeps depth (Nat.lt_succ_self depth)]
    exact hkeep
  have hless := hblock.less
  rw [← hypc] at hless
  have hdown := next_assign hless
  simp only [(eval_counting hyv).2, List.map_nil, List.append_nil, hypc] at hdown
  have hback : program[b + 2 + size + 1]? = some (.jump (b + 1 : Nat)) := by
    rw [← hblock.back]
    congr 1
    omega
  have hjump := next_jump (x := ⟨b + 2 + size + 1, y.env.set (counter depth) (v - 1), y.log⟩) hback
  have hend : y.go program 2 = ⟨b + 1, y.env.set (counter depth) (v - 1), y.log⟩ := by
    rw [go, go, go, hdown, hjump]
  refine ⟨1 + (n + 2), ?_, ?_, ?_⟩
  · rw [go_add, go_add, hy, hend]
  · rw [go_add, go_add, hy, hend]
    exact Env.get?_set_self _
  · have htest : Rounds program b size depth x 0 1 := by
      refine rounds_step (by omega) (by omega) (by omega) (by omega) ?_
      rw [hnext]
      exact fun _ _ => rfl
    have hrest : Rounds program b size depth (x.go program 1) 1 (n + 2) := by
      have hdownpc : (y.go program 1).pc = b + 2 + size + 1 := congrArg Snapshot.pc hdown
      refine ⟨?_, ?_, ?_, ?_⟩
      · intro k hk
        by_cases hkn : k < n
        · have hbounds := hway.low_le_pc hkn
          omega
        · obtain ⟨j, rfl⟩ := Nat.exists_eq_add_of_le (Nat.not_lt.1 hkn)
          rw [go_add, hy]
          obtain rfl | rfl : j = 0 ∨ j = 1 := by omega
          · change b < y.pc ∧ y.pc < _
            omega
          · omega
      · -- An empty inside is not traversed: then the round begins where it ends.
        rw [visits_add, hway.visits_low, hy, visits_add (x := y) _ 1 1, visits_one, visits_one,
          hypc, hdownpc]
        by_cases hempty : size = 0
        · rw [if_neg (by omega), if_pos (by omega), if_neg (by omega)]
        · rw [if_pos (by omega), if_neg (by omega), if_neg (by omega)]
      · rw [visits_add, hway.visits_high, hy, visits_add (x := y) _ 1 1, visits_one, visits_one,
          hypc, hdownpc]
        simp
      · rw [go_add, hy, hend]
        refine Keeps.trans ?_ (keeps_set_counter (v - 1))
        rw [← hy]
        exact hway.keeps.mono (Nat.le_succ depth)
    have hall := htest.append hrest
    rwa [Nat.zero_add] at hall

/-- From its test a repeat block makes as many rounds as its counter says. -/
theorem exists_rounds (hblock : RepeatAt program b size depth count)
    (hinner : ∀ y : Snapshot, y.pc = b + 2 →
      ∃ n, Traverses program (b + 2) (b + 2 + size) (depth + 1) y n)
    (hpc : x.pc = b + 1) {v : Int64} (hv : x.env.get? (counter depth) = some v) :
    ∃ n, (x.go program n).pc = b + 4 + size ∧
      Rounds program b size depth x v.toInt.toNat n := by
  generalize hcount : v.toInt.toNat = rounds
  induction rounds generalizing x v with
  | zero =>
      have hnext := next_test hblock hpc hv
      rw [if_neg (toNat_eq_zero_iff.1 hcount)] at hnext
      refine ⟨1, congrArg Snapshot.pc hnext, ?_⟩
      refine rounds_step (by omega) (by omega) (by omega) (by omega) ?_
      rw [hnext]
      exact fun _ _ => rfl
  | succ rounds ih =>
      have hpos : v > 0 := by
        refine Decidable.by_contra fun hnot => ?_
        rw [toNat_eq_zero_iff.2 hnot] at hcount
        omega
      obtain ⟨n, hpc', hv', hround⟩ := exists_round hblock hinner hpc hv hpos
      obtain ⟨n', hend, hrounds⟩ := ih hpc' hv' (toNat_sub_one hcount)
      refine ⟨n + n', ?_, ?_⟩
      · rw [go_add]
        exact hend
      · rw [Nat.add_comm rounds]
        exact hround.append hrounds

structure Repeats (program : Program) (b size depth : Nat) (x : Snapshot) (count n : Nat) :
    Prop extends Traverses program b (b + 5 + size) depth x n where
  begun : x.visits program (b + 2) n = count
  ended : x.visits program (b + 2 + size) n = count

theorem exists_repeats (hblock : RepeatAt program b size depth count)
    (hinner : ∀ y : Snapshot, y.pc = b + 2 →
      ∃ n, Traverses program (b + 2) (b + 2 + size) (depth + 1) y n)
    (hpc : x.pc = b) :
    ∃ n, Repeats program b size depth x (count.eval x.env.get?).1.toInt.toNat n := by
  have hstore := hblock.store
  rw [← hpc] at hstore
  have hopen := next_assign hstore
  rw [hpc] at hopen
  have hpc₁ : (x.go program 1).pc = b + 1 := congrArg Snapshot.pc hopen
  have hv : (x.go program 1).env.get? (counter depth) = some (count.eval x.env.get?).1 := by
    rw [go, go, hopen]
    exact Env.get?_set_self _
  obtain ⟨n, hstop, hrounds⟩ := exists_rounds hblock hinner hpc₁ hv
  obtain ⟨y, hy⟩ : ∃ y, (x.go program 1).go program n = y := ⟨_, rfl⟩
  rw [hy] at hstop
  have hforget := hblock.forget
  rw [← hstop] at hforget
  have hclose := next_unset hforget
  have hend : (y.go program 1).pc = b + 5 + size := by
    rw [go, go, hclose]
    change y.pc + 1 = _
    omega
  refine ⟨1 + (n + 1), ⟨hpc, ?_, Or.inr (by omega), ?_, ?_⟩, ?_, ?_⟩
  · rw [go_add, go_add, hy]
    exact hend
  · intro k hpos hk
    obtain ⟨j, rfl⟩ : ∃ j, k = 1 + j := ⟨k - 1, by omega⟩
    rw [go_add]
    by_cases hjn : j < n
    · have hbounds := hrounds.inside j hjn
      omega
    · obtain rfl : j = n := by omega
      rw [hy]
      omega
  · rw [go_add, go_add, hy]
    have hopened : Keeps depth x (x.go program 1) := by
      rw [go, go, hopen]
      exact keeps_set_counter _
    have hclosed : Keeps depth y (y.go program 1) := by
      rw [go, go, hclose]
      exact keeps_erase_counter
    refine hopened.trans (Keeps.trans ?_ hclosed)
    rw [← hy]
    exact hrounds.keeps
  · rw [visits_add, visits_add, visits_one, hrounds.begun, hy, visits_one, hpc, hstop,
      if_neg (by omega), if_neg (by omega)]
    omega
  · rw [visits_add, visits_add, visits_one, hrounds.ended, hy, visits_one, hpc, hstop,
      if_neg (by omega), if_neg (by omega)]
    omega

end Block

theorem traverses_simple {statement : Simple} (hplain : statement.Plain) {b : Nat}
    (depth : Nat) (hins : program[b]? = some statement.instruction) (hpc : x.pc = b) :
    Traverses program b (b + 1) depth x 1 := by
  rw [← hpc] at hins
  have hassign {name : Text} {e : Expr} (hname : name.isIdentifier = true)
      (hins : program[x.pc]? = some (.assign name e)) :
      Traverses program b (b + 1) depth x 1 := by
    have hnext := next_assign hins
    refine .step hpc ?_ (Nat.lt_succ_self b) ?_
    · rw [hnext, hpc]
    · rw [hnext]
      exact keeps_set hname _
  cases statement with
  | assign name value => exact hassign hplain.1 hins
  | increment name => exact hassign hplain hins
  | decrement name => exact hassign hplain hins
  | act action argument =>
      have hnext := next_act hins
      refine .step hpc ?_ (Nat.lt_succ_self b) ?_
      · rw [hnext, hpc]
      · rw [hnext]
        exact fun _ _ => rfl

/-- A branch goes on at one of its two places. -/
theorem traverses_branch {cond : Expr} {b yes no : Nat} (depth : Nat)
    (hins : program[b]? = some (.branch cond yes no)) (hyes : b < yes) (hno : b < no)
    (hpc : x.pc = b) :
    Traverses program b yes depth x 1 ∨ Traverses program b no depth x 1 := by
  rw [← hpc] at hins
  have hnext := next_branch hins
  have hkeeps : Keeps depth x (x.next program) := by
    rw [hnext]
    exact fun _ _ => rfl
  by_cases htrue : ((cond.eval x.env.get?).1 != 0) = true
  · rw [if_pos htrue] at hnext
    exact Or.inl (.step hpc (congrArg Snapshot.pc hnext) hyes hkeeps)
  · rw [if_neg htrue] at hnext
    exact Or.inr (.step hpc (congrArg Snapshot.pc hnext) hno hkeeps)

theorem traverses_jump {b target : Nat} (depth : Nat)
    (hins : program[b]? = some (.jump target)) (hlt : b < target) (hpc : x.pc = b) :
    Traverses program b target depth x 1 := by
  rw [← hpc] at hins
  have hnext := next_jump hins
  refine .step hpc (congrArg Snapshot.pc hnext) hlt ?_
  rw [hnext]
  exact fun _ _ => rfl

theorem exists_traverses_opening {opening : Opening} (hcounted : opening.Counted)
    {code : List Instruction} {b depth : Nat}
    (hcode : CodeAt program b (opening.wrap b depth code))
    (hinner : ∀ y : Snapshot, y.pc = b + opening.lead → ∃ n, Traverses program
      (b + opening.lead) (b + opening.lead + code.length) (opening.deepen depth) y n)
    (hpc : x.pc = b) :
    ∃ n, Traverses program b (b + (opening.lead + code.length + opening.trail)) depth x n := by
  cases opening with
  | ifThen cond =>
      obtain ⟨hbranch, _⟩ := placed_cons.1 hcode
      have hstop : b + (1 + code.length + 0) = b + 1 + code.length := by omega
      simp only [Opening.lead, Opening.trail, hstop] at hinner ⊢
      rcases traverses_branch depth hbranch (by omega) (by omega) hpc with hyes | hno
      · obtain ⟨n, hway⟩ := hinner _ hyes.arrives
        exact ⟨1 + n, hyes.append hway (Nat.le_refl depth)⟩
      · exact ⟨1, hno⟩
  | loop negated cond => exact hcounted.elim
  | repeatLoop count =>
      have hstop : b + (2 + code.length + 3) = b + 5 + code.length := by omega
      simp only [Opening.lead, Opening.trail, hstop] at hinner ⊢
      obtain ⟨n, hrepeats⟩ := exists_repeats (repeatAt_of_codeAt hcode) hinner hpc
      exact ⟨n, hrepeats.toTraverses⟩

/-- A body whose loops are counted is traversed from wherever its code stands. -/
theorem exists_traverses {body : Body} (hplain : body.Plain) (hcounted : body.Counted)
    {b depth : Nat} (hcode : CodeAt program b (body.code b depth)) (hpc : x.pc = b) :
    ∃ n, Traverses program b (b + body.size) depth x n := by
  induction body generalizing x b depth with
  | done => exact ⟨0, .here depth hpc⟩
  | simple statement next ih =>
      obtain ⟨hins, hrest⟩ := placed_cons.1 hcode
      have hfirst := traverses_simple hplain.1 depth hins hpc
      obtain ⟨n, hway⟩ := ih hplain.2 hcounted hrest hfirst.arrives
      rw [Body.size, ← Nat.add_assoc]
      exact ⟨1 + n, hfirst.append hway (Nat.le_refl depth)⟩
  | block opening inner next ihi ihn =>
      obtain ⟨hblock, hrest⟩ := placed_append.1 hcode
      rw [Opening.length_wrap, Body.length_code] at hrest
      obtain ⟨n, hfirst⟩ := exists_traverses_opening hcounted.1 hblock
        (fun y hy => by
          rw [Body.length_code]
          exact ihi hplain.2.1 hcounted.2.1 hblock.of_wrap hy) hpc
      rw [Body.length_code] at hfirst
      obtain ⟨m, hway⟩ := ihn hplain.2.2 hcounted.2.2 hrest hfirst.arrives
      rw [Body.size, ← Nat.add_assoc]
      exact ⟨n + m, hfirst.append hway (Nat.le_refl depth)⟩
  | ifElse cond yes no next ihy ihn ihx =>
      obtain ⟨hbranch, hrest⟩ := placed_cons.1 hcode
      obtain ⟨hyes, hrest⟩ := placed_append.1 hrest
      obtain ⟨hjump, hrest⟩ := placed_cons.1 hrest
      obtain ⟨hno, hrest⟩ := placed_append.1 hrest
      rw [Body.length_code] at hjump hno hrest
      rw [Body.length_code] at hrest
      have harms : ∃ n, Traverses program b (b + 1 + yes.size + 1 + no.size) depth x n := by
        rcases traverses_branch depth hbranch (by omega) (by omega) hpc with hthen | helse
        · obtain ⟨n, hway⟩ := ihy hplain.2.1 hcounted.1 hyes hthen.arrives
          have hdone := hthen.append hway (Nat.le_refl depth)
          exact ⟨1 + n + 1, hdone.append (traverses_jump depth hjump (by omega) hdone.arrives)
            (Nat.le_refl depth)⟩
        · obtain ⟨n, hway⟩ := ihn hplain.2.2.1 hcounted.2.1 hno helse.arrives
          exact ⟨1 + n, helse.append hway (Nat.le_refl depth)⟩
      obtain ⟨n, hfirst⟩ := harms
      obtain ⟨m, hway⟩ := ihx hplain.2.2.2 hcounted.2.2 hrest hfirst.arrives
      have hstop : b + (Body.ifElse cond yes no next).size =
          b + 1 + yes.size + 1 + no.size + next.size := by
        rw [Body.size]
        omega
      rw [hstop]
      exact ⟨n + m, hfirst.append hway (Nat.le_refl depth)⟩

/-- Whoever comes to the start of a repeat block leaves it after the rounds it was to make. -/
theorem exists_repeats_of_mem_spans {body : Body} (hplain : body.Plain)
    (hcounted : body.Counted) {b depth : Nat} (hcode : CodeAt program b (body.code b depth))
    {r : Span} (hr : r ∈ body.spans b depth) {count : Expr}
    (hcount : program[r.start]? = some (.assign r.counter count)) (hpc : x.pc = r.start) :
    ∃ size depth n, r.stop = r.start + 4 + size ∧
      Repeats program r.start size depth x (count.eval x.env.get?).1.toInt.toNat n := by
  induction body generalizing b depth with
  | done => simp [Body.spans] at hr
  | simple statement next ih => exact ih hplain.2 hcounted (placed_cons.1 hcode).2 hr
  | block opening inner next ihi ihn =>
      obtain ⟨hblock, hrest⟩ := placed_append.1 hcode
      rw [Opening.length_wrap, Body.length_code] at hrest
      simp only [Body.spans, List.mem_append] at hr
      rcases hr with (hr | hr) | hr
      · cases opening with
        | repeatLoop count' =>
            obtain rfl := List.mem_singleton.1 hr
            have hstands := repeatAt_of_codeAt hblock
            obtain rfl : count = count' := by
              simpa [Instruction.assign] using hcount.symm.trans hstands.store
            rw [Body.length_code] at hstands
            obtain ⟨n, hrepeats⟩ := exists_repeats hstands
              (fun y hy => exists_traverses hplain.2.1 hcounted.2.1 hblock.of_wrap hy) hpc
            exact ⟨inner.size, depth, n, rfl, hrepeats⟩
        | _ => simp [Opening.spans] at hr
      · exact ihi hplain.2.1 hcounted.2.1 hblock.of_wrap hr
      · exact ihn hplain.2.2 hcounted.2.2 hrest hr
  | ifElse cond yes no next ihy ihn ihx =>
      obtain ⟨_, hrest⟩ := placed_cons.1 hcode
      obtain ⟨hyes, hrest⟩ := placed_append.1 hrest
      obtain ⟨_, hrest⟩ := placed_cons.1 hrest
      obtain ⟨hno, hrest⟩ := placed_append.1 hrest
      rw [Body.length_code] at hno hrest
      rw [Body.length_code] at hrest
      simp only [Body.spans, List.mem_append] at hr
      rcases hr with (hr | hr) | hr
      · exact ihy hplain.2.1 hcounted.1 hyes hr
      · exact ihn hplain.2.2.1 hcounted.2.1 hno hr
      · exact ihx hplain.2.2.2 hcounted.2.2 hrest hr

end Snapshot

/-- In `n` steps of a course from its `k`th state on, a repeat block is left after a number of
rounds: the machine comes so often to the first instruction inside and so often behind the last. -/
structure Span.Repeats (r : Span) (state : Nat → Machine) (k rounds n : Nat) : Prop where
  left : (state (k + n)).pc = r.stop + 1
  inside : ∀ i, 0 < i → i < n → r.Covers (state (k + i)).pc
  begun : Nat.count (fun i => (state (k + i)).pc = r.start + 2) n = rounds
  ended : Nat.count (fun i => (state (k + i)).pc + 2 = r.stop) n = rounds

/-- The course comes to the end of the program, and each entry to a repeat block makes as many
rounds as its count is worth on entry. -/
structure Machine.Counts (program : Program) (spans : List Span) (state : Nat → Machine) :
    Prop where
  halts : ∃ n, (state n).isHalted = true
  repeats : ∀ r ∈ spans, ∀ count, program[r.start]? = some (.assign r.counter count) →
    ∀ k, (state k).pc = r.start →
      ∃ n, r.Repeats state k (count.eval (state k).env.get?).1.toInt.toNat n

theorem Body.Plain.counts {body : Body} (hplain : body.Plain) (hcounted : body.Counted)
    {state : Nat → Machine} {x : Snapshot} (hpc : x.pc = 0)
    (hstate : ∀ n, (state n).Agrees body.program (x.go body.program n)) :
    Machine.Counts body.program (body.spans 0 0) state := by
  have hcode := codeAt_program body
  refine ⟨?_, ?_⟩
  · obtain ⟨n, hway⟩ := Snapshot.exists_traverses hplain hcounted hcode hpc
    refine ⟨n, ?_⟩
    rw [(hstate n).isHalted_eq, hway.arrives, Body.size_program]
    simp
  · intro r hr count hcount k hk
    rw [(hstate k).pc_eq] at hk
    obtain ⟨size, depth, n, hstop, hrepeats⟩ :=
      Snapshot.exists_repeats_of_mem_spans hplain hcounted hcode hr hcount hk
    have hpcs (i : Nat) :
        (state (k + i)).pc = ((x.go body.program k).go body.program i).pc := by
      rw [(hstate (k + i)).pc_eq, Snapshot.go_add]
    rw [(hstate k).env_eq]
    refine ⟨n, ?_, ?_, ?_, ?_⟩
    · rw [hpcs, hrepeats.arrives, hstop]
      omega
    · intro i hpos hi
      obtain ⟨hlow, hhigh⟩ := hrepeats.between i hpos hi
      rw [hpcs]
      exact ⟨hlow, by omega⟩
    · simp only [hpcs]
      exact hrepeats.begun
    · have hbehind (i : Nat) : (state (k + i)).pc + 2 = r.stop ↔
          ((x.go body.program k).go body.program i).pc = r.start + 2 + size := by
        rw [hpcs]
        omega
      simp only [hbehind]
      exact hrepeats.ended

/-- A program without while and until loops halts, whatever its variables are at the start and with
every `Host`, which makes at most one step or run from inside an action: by single steps if no run
is started in the middle of one, and by a run if nobody stops it. And each entry to a repeat block
makes as many rounds as its count is worth on entry, or none if that is negative. -/
theorem counted_programs_halt {bound : Nat} {source : Text} {program : Program}
    (hcompile : compile bound source = .ok program) :
    ∃ tokens eof, (Feed.ofText source none).tokens = (tokens, .ok eof) ∧
      (∃ body, Body.Derives bound tokens body) ∧
      ∀ body, Body.Derives bound tokens body → body.Counted →
        (∀ r ∈ body.spans 0 0, r.Stands program) ∧
        ∀ {σ : Type} (h : Host σ) (s : σ) (env : Env) (limit : Int) (timeout : Duration)
          (fuel depth : Nat), limit ≤ 0 →
            let start := { Machine.new program limit timeout with env }
            (h.NeverRuns → Machine.Counts program (body.spans 0 0)
              fun n => (start.afterSteps h fuel depth n s).2) ∧
            ((∀ s, h.stop s = none) →
              (Machine.Counts program (body.spans 0 0) fun n => (start.run h n depth s).2.1) ∧
              ∃ n, (start.run h n depth s).2.2 = some (.ok ())) := by
  obtain ⟨tokens, eof, htokens, hexists, hprogram⟩ := exists_tokens_of_compile hcompile
  refine ⟨tokens, eof, htokens, hexists, ?_⟩
  intro body hbody hcounted
  obtain rfl := hprogram body hbody
  have hplain := hbody.plain
  refine ⟨fun r hr => Body.stands_of_codeAt (codeAt_program body) hr, ?_⟩
  intro σ h s env limit timeout fuel depth hlimit start
  let x : Snapshot := ⟨0, env, []⟩
  have hstart : start.Agrees body.program x := by
    refine ⟨rfl, ?_, Int.toNat_of_nonpos hlimit, rfl, rfl⟩
    simp [start, Machine.new, hplain.invalid?]
  refine ⟨fun hnever => ?_, fun hstop => ?_⟩
  · exact hplain.counts hcounted (x := x) rfl
      fun n => Machine.afterSteps_agrees hnever fuel depth n hstart
  · have hrun (n : Nat) := Machine.run_agrees (s := s) hstop n depth rfl hstart
    have hcounts : Machine.Counts body.program (body.spans 0 0)
        fun n => (start.run h n depth s).2.1 := by
      refine hplain.counts hcounted (x := x) rfl fun n => ?_
      obtain ⟨s', m', hrun, hm'⟩ := hrun n
      rw [hrun]
      exact hm'
    refine ⟨hcounts, ?_⟩
    -- A run looks at the end of the program only after a step, so one step is added.
    obtain ⟨n, hway⟩ := Snapshot.exists_traverses hplain hcounted (codeAt_program body) (x := x) rfl
    have hsize : body.program.size ≤ (x.go body.program n).pc := by
      rw [hway.arrives, Body.size_program]
      omega
    obtain ⟨s', m', hlast, hm'⟩ := hrun (n + 1)
    have hhalted : m'.isHalted = true := by
      rw [hm'.isHalted_eq, Snapshot.go_add, Snapshot.go_of_halted hsize]
      simpa using hsize
    refine ⟨n + 1, ?_⟩
    rw [hlast, if_pos ⟨Nat.succ_ne_zero n, hhalted⟩]

/-- The count is looked at once: a round that sets its variable to 0 is made three times. -/
theorem reassigned_count_repeats :
    ∃ program, compile 256 (Text.ofString "X = 3 repeat X times X = 0 end") = .ok program ∧
      let run (n : Nat) := { Machine.new program 0 .zero with env := {} }.run
        { act := fun s _ _ => (s, .proceed) } n 0 ()
      (∃ n, (run n).2.2 = some (.ok ())) ∧ (run 1).2.1.pc = 1 ∧
      ∃ n, Span.Repeats ⟨counter 0, 1, 6⟩ (fun n => (run n).2.1) 1 3 n := by
  let X : Text := Text.ofString "X"
  let body : Body := .simple (.assign X (.literal 3)) (.block (.repeatLoop (.var X))
    (.simple (.assign X (.literal 0)) .done) .done)
  let tokens : List Token := [⟨.expression, X, ⟨1, 1⟩⟩, ⟨.keyword, Text.ofString "=", ⟨1, 3⟩⟩,
    ⟨.expression, Text.ofString "3", ⟨1, 5⟩⟩, ⟨.keyword, Text.ofString "repeat", ⟨1, 7⟩⟩,
    ⟨.expression, X, ⟨1, 14⟩⟩, ⟨.keyword, Text.ofString "times", ⟨1, 16⟩⟩,
    ⟨.expression, X, ⟨1, 22⟩⟩, ⟨.keyword, Text.ofString "=", ⟨1, 24⟩⟩,
    ⟨.expression, Text.ofString "0", ⟨1, 26⟩⟩, ⟨.keyword, Text.ofString "end", ⟨1, 28⟩⟩]
  have htokens : (Feed.ofText (Text.ofString "X = 3 repeat X times X = 0 end") none).tokens =
      (tokens, .ok ⟨.eof, [], ⟨1, 31⟩⟩) := rfl
  have hX (pos : Position) : Token.Reads 256 ⟨.expression, X, pos⟩ (.var X) :=
    Token.reads_identifier pos (by decide) (by decide)
  have hthree : Token.Reads 256 ⟨.expression, Text.ofString "3", ⟨1, 5⟩⟩ (.literal 3) :=
    Token.reads_numeral _ (by decide) (by decide) (by decide)
  have hzero : Token.Reads 256 ⟨.expression, Text.ofString "0", ⟨1, 26⟩⟩ (.literal 0) :=
    Token.reads_numeral _ (by decide) (by decide) (by decide)
  have hbody : body.Derives 256 tokens :=
    .simple (.assign (hX _) rfl hthree)
      (.block (.repeatLoop rfl (hX _) rfl) (.simple (.assign (hX _) rfl hzero) .done) rfl .done)
  have hcompile := compile_of_derives htokens hbody
  obtain ⟨tokens', eof, htokens', _, hall⟩ := counted_programs_halt hcompile
  obtain ⟨rfl, _⟩ := Prod.mk.inj (htokens.symm.trans htokens')
  obtain ⟨_, hruns⟩ := hall body hbody ⟨trivial, trivial, trivial⟩
  obtain ⟨hcounts, hends⟩ := (hruns { act := fun s _ _ => (s, .proceed) } () {} 0 .zero 0 0
    (by decide)).2 fun _ => rfl
  exact ⟨body.program, hcompile, hends, rfl,
    hcounts.repeats ⟨counter 0, 1, 6⟩ List.mem_cons_self (.var X) rfl 1 rfl⟩

end Tortoise
