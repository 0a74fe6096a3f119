import Tortoise.Proofs.Compile.Layout
import Tortoise.Proofs.Machine.Faults

/-!
# The scopes of counters

The counter of a repeat block is in scope behind the assignment that opens the block, up to and
including the instruction that unsets it. However control passes from one instruction to the next,
the counters in scope change by what the instruction stores or forgets and by nothing else.
-/

namespace Tortoise

open Opening (counter)

/-- Where a repeat block stands: from the assignment of its counter to the unset. -/
structure Span where
  counter : Text
  start : Nat
  stop : Nat
deriving DecidableEq

namespace Span

def Covers (r : Span) (pc : Nat) : Prop := r.start < pc ∧ pc ≤ r.stop

instance (r : Span) (pc : Nat) : Decidable (r.Covers pc) :=
  inferInstanceAs (Decidable (_ ∧ _))

def Owns (r : Span) (i : Nat) : Prop := i = r.start ∨ i + 2 = r.stop ∨ i = r.stop

end Span

def Opening.spans (b depth size : Nat) : Opening → List Span
  | repeatLoop _ => [⟨counter depth, b, b + 4 + size⟩]
  | _ => []

def Body.spans (b depth : Nat) : Body → List Span
  | done => []
  | simple _ next => next.spans (b + 1) depth
  | block opening inner next =>
    opening.spans b depth inner.size ++ inner.spans (b + opening.lead) (opening.deepen depth) ++
      next.spans (b + (opening.lead + inner.size + opening.trail)) depth
  | ifElse _ yes no next =>
    yes.spans (b + 1) depth ++ no.spans (b + 1 + yes.size + 1) depth ++
      next.spans (b + 1 + yes.size + 1 + no.size) depth

def InScope (spans : List Span) (pc : Nat) (name : Text) : Prop :=
  ∃ r ∈ spans, r.Covers pc ∧ r.counter = name

structure Span.Within (low high depth : Nat) (r : Span) : Prop where
  low_le : low ≤ r.start
  lt_high : r.stop < high
  counts : ∃ k, depth ≤ k ∧ r.counter = Opening.counter k

theorem Span.Within.mono {low high depth low' high' depth' : Nat} {r : Span}
    (h : r.Within low high depth) (hlow : low' ≤ low) (hhigh : high ≤ high')
    (hdepth : depth' ≤ depth) : r.Within low' high' depth' := by
  obtain ⟨hstart, hstop, k, hk, hcounter⟩ := h
  exact ⟨by omega, by omega, k, by omega, hcounter⟩

theorem Span.Within.not_covers {low high depth pc : Nat} {r : Span}
    (h : r.Within low high depth) (hpc : pc ≤ low ∨ high ≤ pc) : ¬ r.Covers pc := by
  rintro ⟨hstart, hstop⟩
  have hlow := h.low_le
  have hhigh := h.lt_high
  omega

theorem Opening.within_of_mem_spans {b depth size : Nat} {opening : Opening} {r : Span}
    (h : r ∈ opening.spans b depth size) :
    r.Within b (b + (opening.lead + size + opening.trail)) depth := by
  cases opening with
  | repeatLoop count =>
      obtain rfl := List.mem_singleton.1 h
      refine ⟨Nat.le_refl b, ?_, depth, Nat.le_refl depth, rfl⟩
      simp only [lead, trail]
      omega
  | _ => simp [spans] at h

theorem Opening.le_deepen (depth : Nat) (opening : Opening) : depth ≤ opening.deepen depth := by
  cases opening <;> simp [deepen]

theorem Body.within_of_mem_spans {body : Body} {b depth : Nat} {r : Span}
    (h : r ∈ body.spans b depth) : r.Within b (b + body.size) depth := by
  induction body generalizing b depth with
  | done => simp [spans] at h
  | simple statement next ih =>
      simp only [size]
      exact (ih h).mono (by omega) (by omega) (Nat.le_refl depth)
  | block opening inner next ihi ihn =>
      simp only [spans, List.mem_append] at h
      simp only [size]
      rcases h with (h | h) | h
      · exact (Opening.within_of_mem_spans h).mono (by omega) (by omega) (Nat.le_refl depth)
      · exact (ihi h).mono (by omega) (by omega) (opening.le_deepen depth)
      · exact (ihn h).mono (by omega) (by omega) (Nat.le_refl depth)
  | ifElse cond yes no next ihy ihn ihx =>
      simp only [spans, List.mem_append] at h
      simp only [size]
      rcases h with (h | h) | h
      · exact (ihy h).mono (by omega) (by omega) (Nat.le_refl depth)
      · exact (ihn h).mono (by omega) (by omega) (Nat.le_refl depth)
      · exact (ihx h).mono (by omega) (by omega) (Nat.le_refl depth)

theorem Body.not_inScope {body : Body} {b depth pc : Nat} (hpc : pc ≤ b ∨ b + body.size ≤ pc)
    (name : Text) : ¬ InScope (body.spans b depth) pc name := by
  rintro ⟨r, hr, hcovers, _⟩
  exact (within_of_mem_spans hr).not_covers hpc hcovers

theorem inScope_append {spans more : List Span} {pc : Nat} {name : Text} :
    InScope (spans ++ more) pc name ↔ InScope spans pc name ∨ InScope more pc name := by
  simp [InScope, or_and_right, exists_or]

def countersAt (spans : List Span) (pc : Nat) : List Text :=
  (spans.filter fun r => r.Covers pc).map (·.counter)

theorem mem_countersAt {spans : List Span} {pc : Nat} {name : Text} :
    name ∈ countersAt spans pc ↔ InScope spans pc name := by
  simp [countersAt, InScope, and_assoc]

theorem countersAt_append (spans more : List Span) (pc : Nat) :
    countersAt (spans ++ more) pc = countersAt spans pc ++ countersAt more pc := by
  simp [countersAt]

theorem Body.countersAt_eq_nil {body : Body} {b depth pc : Nat}
    (hpc : pc ≤ b ∨ b + body.size ≤ pc) : countersAt (body.spans b depth) pc = [] := by
  rw [List.eq_nil_iff_forall_not_mem]
  intro name hname
  exact body.not_inScope hpc name (mem_countersAt.1 hname)

theorem Opening.countersAt_eq_nil {opening : Opening} {b depth size pc : Nat}
    (hpc : pc ≤ b ∨ b + (opening.lead + size + opening.trail) ≤ pc) :
    countersAt (opening.spans b depth size) pc = [] := by
  rw [List.eq_nil_iff_forall_not_mem]
  intro name hname
  obtain ⟨r, hr, hcovers, _⟩ := mem_countersAt.1 hname
  exact (within_of_mem_spans hr).not_covers hpc hcovers

theorem Opening.nodup_countersAt_wrap {opening : Opening} {inner : Body} {b depth pc : Nat}
    (h : (countersAt (inner.spans (b + opening.lead) (opening.deepen depth)) pc).Nodup) :
    (countersAt (opening.spans b depth inner.size ++
      inner.spans (b + opening.lead) (opening.deepen depth)) pc).Nodup := by
  rw [countersAt_append]
  cases opening with
  | repeatLoop count =>
      by_cases hcovers : Span.Covers ⟨counter depth, b, b + 4 + inner.size⟩ pc
      · have hown : countersAt ((repeatLoop count).spans b depth inner.size) pc =
            [counter depth] := by simp [countersAt, spans, hcovers]
        rw [hown, List.singleton_append, List.nodup_cons]
        refine ⟨fun hmem => ?_, h⟩
        obtain ⟨r, hr, _, hcounter⟩ := mem_countersAt.1 hmem
        obtain ⟨k, hk, hname⟩ := (Body.within_of_mem_spans hr).counts
        have hdeep := counter_inj (hcounter.symm.trans hname)
        simp only [deepen] at hk
        omega
      · have hown : countersAt ((repeatLoop count).spans b depth inner.size) pc = [] := by
          simp [countersAt, spans, hcovers]
        rw [hown]
        exact h
  | _ => exact h

/-- The counters of blocks that are open at the same time are different. -/
theorem Body.nodup_countersAt (body : Body) (b depth pc : Nat) :
    (countersAt (body.spans b depth) pc).Nodup := by
  induction body generalizing b depth with
  | done => exact List.nodup_nil
  | simple statement next ih => exact ih (b + 1) depth
  | block opening inner next ihi ihn =>
      have hwrap := Opening.nodup_countersAt_wrap (ihi (b + opening.lead) (opening.deepen depth))
      rw [spans, countersAt_append]
      by_cases hpc : pc ≤ b + (opening.lead + inner.size + opening.trail)
      · rw [next.countersAt_eq_nil (Or.inl hpc), List.append_nil]
        exact hwrap
      · rw [countersAt_append, Opening.countersAt_eq_nil (by omega),
          inner.countersAt_eq_nil (by omega)]
        exact ihn _ depth
  | ifElse cond yes no next ihy ihn ihx =>
      rw [spans, countersAt_append, countersAt_append]
      by_cases hyes : pc ≤ b + 1 + yes.size
      · rw [no.countersAt_eq_nil (by omega), next.countersAt_eq_nil (by omega), List.append_nil,
          List.append_nil]
        exact ihy _ depth
      · rw [yes.countersAt_eq_nil (by omega), List.nil_append]
        by_cases hno : pc ≤ b + 1 + yes.size + 1 + no.size
        · rw [next.countersAt_eq_nil (by omega), List.append_nil]
          exact ihn _ depth
        · rw [no.countersAt_eq_nil (by omega)]
          exact ihx _ depth

namespace Instruction

def Passes (ins : Instruction) (i j : Nat) : Prop :=
  match ins.command with
  | .jump => j = ins.target.toNat
  | .branch => j = ins.onTrue.toNat ∨ j = ins.onFalse.toNat
  | _ => j = i + 1

def Leaves (ins : Instruction) (name : Text) (before : Prop) : Prop :=
  match ins.command with
  | .assign => before ∨ name = ins.name
  | .unset => before ∧ name ≠ ins.name
  | _ => before

def Writes (ins : Instruction) (name : Text) : Prop :=
  (ins.command = .assign ∨ ins.command = .unset) ∧ ins.name = name

end Instruction

/-- The instruction at index `i` passes control within a range only, the counters in scope change by
what it does, its faults name no counter, and it writes the counter of its own block only. -/
structure Respects (spans : List Span) (low high i : Nat) (ins : Instruction) : Prop where
  stays : ∀ j, ins.Passes i j → low ≤ j ∧ j ≤ high
  scopes : ∀ j, ins.Passes i j → ∀ name, Env.isHidden name = true →
    (InScope spans j name ↔ ins.Leaves name (InScope spans i name))
  discreet : ins.expr.Discreet (InScope spans i)
  owned : ∀ name, Env.isHidden name = true → ins.Writes name →
    ∃ r ∈ spans, r.counter = name ∧ r.Owns i

namespace Respects

variable {spans all : List Span} {low high i : Nat} {ins : Instruction}

theorem widen (h : Respects spans low high i ins) {low' high' : Nat} (hlow : low' ≤ low)
    (hhigh : high ≤ high') : Respects spans low' high' i ins := by
  refine ⟨fun j hj => ?_, h.scopes, h.discreet, h.owned⟩
  have hrange := h.stays j hj
  omega

/-- Blocks around or beside a piece of code, which cover all of it or nothing, change nothing. -/
theorem extend (h : Respects spans low high i ins) (more : List Span)
    (hsteady : ∀ r ∈ more, ∀ j, low ≤ j → j ≤ high → (r.Covers j ↔ r.Covers i))
    (hfresh : ∀ r ∈ more, r.Covers i → ∀ r' ∈ spans, r'.counter ≠ r.counter)
    (hall : ∀ r, r ∈ all ↔ r ∈ more ∨ r ∈ spans) {low' high' : Nat} (hlow : low' ≤ low)
    (hhigh : high ≤ high') : Respects all low' high' i ins := by
  have hsplit (j : Nat) (name : Text) :
      InScope all j name ↔ InScope more j name ∨ InScope spans j name := by
    simp [InScope, hall, or_and_right, exists_or]
  refine ⟨?_, ?_, ?_, ?_⟩
  · intro j hj
    have hrange := h.stays j hj
    omega
  · intro j hj name hname
    obtain ⟨hlowj, hhighj⟩ := h.stays j hj
    have hmore : InScope more j name ↔ InScope more i name := by
      constructor
      · rintro ⟨r, hr, hcovers, hcounter⟩
        exact ⟨r, hr, (hsteady r hr j hlowj hhighj).1 hcovers, hcounter⟩
      · rintro ⟨r, hr, hcovers, hcounter⟩
        exact ⟨r, hr, (hsteady r hr j hlowj hhighj).2 hcovers, hcounter⟩
    rw [hsplit, hsplit, hmore, h.scopes j hj name hname]
    cases hcommand : ins.command with
    | assign => simp only [Instruction.Leaves, hcommand, or_assoc]
    | unset =>
        -- The block that owns this unset is inside, so it is none of those around.
        have hother : InScope more i name → name ≠ ins.name := by
          rintro ⟨r, hr, hcovers, hcounter⟩ hsame
          obtain ⟨r', hr', hcounter', _⟩ := h.owned name hname ⟨Or.inr hcommand, hsame.symm⟩
          exact hfresh r hr hcovers r' hr' (hcounter'.trans hcounter.symm)
        simp only [Instruction.Leaves, hcommand]
        constructor
        · rintro (hscope | ⟨hscope, hne⟩)
          · exact ⟨Or.inl hscope, hother hscope⟩
          · exact ⟨Or.inr hscope, hne⟩
        · rintro ⟨hscope | hscope, hne⟩
          · exact Or.inl hscope
          · exact Or.inr ⟨hscope, hne⟩
    | _ => simp only [Instruction.Leaves, hcommand]
  · exact h.discreet.mono fun name hname => (hsplit i name).2 (Or.inr hname)
  · intro name hname hwrites
    obtain ⟨r, hr, hcounter, howns⟩ := h.owned name hname hwrites
    exact ⟨r, (hall r).2 (Or.inr hr), hcounter, howns⟩

/-- Blocks that lie before or behind a piece of code change nothing. -/
theorem beside (h : Respects spans low high i ins) (more : List Span) (hi : low ≤ i ∧ i ≤ high)
    (hapart : ∀ r ∈ more, ∀ j, low ≤ j → j ≤ high → ¬ r.Covers j)
    (hall : ∀ r, r ∈ all ↔ r ∈ more ∨ r ∈ spans) {low' high' : Nat} (hlow : low' ≤ low)
    (hhigh : high ≤ high') : Respects all low' high' i ins := by
  refine h.extend more ?_ ?_ hall hlow hhigh
  · intro r hr j hlowj hhighj
    exact iff_of_false (hapart r hr j hlowj hhighj) (hapart r hr i hi.1 hi.2)
  · intro r hr hcovers
    exact absurd hcovers (hapart r hr i hi.1 hi.2)

theorem jump {target : Nat} (hrange : low ≤ target ∧ target ≤ high)
    (hscope : ∀ name, InScope spans target name ↔ InScope spans i name) :
    Respects spans low high i (.jump target) := by
  refine ⟨?_, ?_, Expr.discreet_absent _, ?_⟩
  · rintro j rfl
    exact hrange
  · rintro j rfl name _
    exact hscope name
  · rintro name _ ⟨hcommand | hcommand, _⟩
    · cases hcommand
    · cases hcommand

theorem branch {cond : Expr} {yes no : Nat} (hcond : cond.Discreet (InScope spans i))
    (hyes : low ≤ yes ∧ yes ≤ high) (hno : low ≤ no ∧ no ≤ high)
    (hscope : ∀ j, j = yes ∨ j = no → ∀ name, InScope spans j name ↔ InScope spans i name) :
    Respects spans low high i (.branch cond yes no) := by
  refine ⟨?_, ?_, hcond, ?_⟩
  · rintro j (rfl | rfl)
    · exact hyes
    · exact hno
  · intro j hj name _
    exact hscope j hj name
  · rintro name _ ⟨hcommand | hcommand, _⟩
    · cases hcommand
    · cases hcommand

theorem act {action : Action} {e : Expr} (he : e.Discreet (InScope spans i))
    (hrange : low ≤ i + 1 ∧ i + 1 ≤ high)
    (hscope : ∀ name, InScope spans (i + 1) name ↔ InScope spans i name) :
    Respects spans low high i (.act action e) := by
  refine ⟨?_, ?_, he, ?_⟩
  · rintro j rfl
    exact hrange
  · rintro j rfl name _
    exact hscope name
  · rintro name _ ⟨hcommand | hcommand, _⟩
    · cases hcommand
    · cases hcommand

theorem assign {user : Text} {e : Expr} (huser : Env.isHidden user = false)
    (he : e.Discreet (InScope spans i)) (hrange : low ≤ i + 1 ∧ i + 1 ≤ high)
    (hscope : ∀ name, InScope spans (i + 1) name ↔ InScope spans i name) :
    Respects spans low high i (.assign user e) := by
  have hother {name : Text} (hname : Env.isHidden name = true) : name ≠ user := by
    rintro rfl
    rw [huser] at hname
    cases hname
  refine ⟨?_, ?_, he, ?_⟩
  · rintro j rfl
    exact hrange
  · rintro j rfl name hname
    rw [hscope]
    simp only [Instruction.Leaves, Instruction.assign, hother hname, or_false]
  · rintro name hname ⟨_, hsame⟩
    exact absurd hsame.symm (hother hname)

theorem count {r : Span} {e : Expr} (hr : r ∈ spans) (howns : r.Owns i)
    (he : e.Discreet (InScope spans i)) (hrange : low ≤ i + 1 ∧ i + 1 ≤ high)
    (hscope : ∀ name, InScope spans (i + 1) name ↔ InScope spans i name ∨ name = r.counter) :
    Respects spans low high i (.assign r.counter e) := by
  refine ⟨?_, ?_, he, ?_⟩
  · rintro j rfl
    exact hrange
  · rintro j rfl name _
    exact hscope name
  · rintro name _ ⟨_, hsame⟩
    exact ⟨r, hr, hsame, howns⟩

theorem unset {r : Span} (hr : r ∈ spans) (howns : r.Owns i)
    (hrange : low ≤ i + 1 ∧ i + 1 ≤ high)
    (hscope : ∀ name, InScope spans (i + 1) name ↔ InScope spans i name ∧ name ≠ r.counter) :
    Respects spans low high i (.unset r.counter) := by
  refine ⟨?_, ?_, Expr.discreet_absent _, ?_⟩
  · rintro j rfl
    exact hrange
  · rintro j rfl name _
    exact hscope name
  · rintro name _ ⟨_, hsame⟩
    exact ⟨r, hr, hsame, howns⟩

end Respects

section Code

variable {spans : List Span} {b depth : Nat}

theorem Simple.Plain.respects {statement : Simple} (h : statement.Plain) {low high i : Nat}
    (hrange : low ≤ i + 1 ∧ i + 1 ≤ high)
    (hscope : ∀ name, InScope spans (i + 1) name ↔ InScope spans i name) :
    Respects spans low high i statement.instruction := by
  cases statement with
  | assign name value =>
      exact .assign (isHidden_of_isIdentifier h.1) (h.2.discreet _) hrange hscope
  | increment name =>
      have hplain : (Expr.binary .add (.var name) (.literal 1)).Plain := ⟨rfl, h, trivial⟩
      exact .assign (isHidden_of_isIdentifier h) (hplain.discreet _) hrange hscope
  | decrement name =>
      have hplain : (Expr.binary .sub (.var name) (.literal 1)).Plain := ⟨rfl, h, trivial⟩
      exact .assign (isHidden_of_isIdentifier h) (hplain.discreet _) hrange hscope
  | act action argument => exact .act (h.discreet _) hrange hscope

/-- What a block computes from its counter is quiet as long as the counter is in scope. -/
theorem discreet_counting {known : Text → Prop} {k : Text} (hk : known k) :
    (Expr.binary .greater (.var k) (.literal 0)).Discreet known ∧
      (Expr.binary .sub (.var k) (.literal 1)).Discreet known := by
  constructor
  · intro f hf fault hfault
    obtain ⟨v, hv⟩ := Option.isSome_iff_exists.1 (hf k hk)
    rw [(eval_counting hv).1] at hfault
    cases hfault
  · intro f hf fault hfault
    obtain ⟨v, hv⟩ := Option.isSome_iff_exists.1 (hf k hk)
    rw [(eval_counting hv).2] at hfault
    cases hfault

theorem respects_ifThen {cond : Expr} (h : cond.Plain) {inner : Body}
    (hinner : Placed (Respects (inner.spans (b + 1) depth) (b + 1) (b + 1 + inner.size)) (b + 1)
      (inner.code (b + 1) depth)) :
    Placed (Respects (inner.spans (b + 1) depth) b (b + (1 + inner.size))) b
      ((Opening.ifThen cond).wrap b depth (inner.code (b + 1) depth)) := by
  have hnone (j : Nat) (hj : j ≤ b + 1 ∨ b + 1 + inner.size ≤ j) (name : Text) :
      ¬ InScope (inner.spans (b + 1) depth) j name := inner.not_inScope hj name
  refine placed_cons.2 ⟨?_, ?_⟩
  · rw [Body.length_code]
    refine .branch (h.discreet _) (by omega) (by omega) ?_
    rintro j (rfl | rfl) name
    · exact iff_of_false (hnone _ (by omega) name) (hnone _ (by omega) name)
    · exact iff_of_false (hnone _ (by omega) name) (hnone _ (by omega) name)
  · refine hinner.mono fun i ins _ _ hrespects => ?_
    exact hrespects.widen (by omega) (by omega)

theorem respects_loop {cond : Expr} (h : cond.Plain) (negated : Bool) {inner : Body}
    (hinner : Placed (Respects (inner.spans (b + 1) depth) (b + 1) (b + 1 + inner.size)) (b + 1)
      (inner.code (b + 1) depth)) :
    Placed (Respects (inner.spans (b + 1) depth) b (b + (1 + inner.size + 1))) b
      ((Opening.loop negated cond).wrap b depth (inner.code (b + 1) depth)) := by
  have hnone (j : Nat) (hj : j ≤ b + 1 ∨ b + 1 + inner.size ≤ j) (name : Text) :
      ¬ InScope (inner.spans (b + 1) depth) j name := inner.not_inScope hj name
  refine placed_cons.2 ⟨?_, placed_append.2 ⟨?_, placed_cons.2 ⟨?_, placed_nil _ _⟩⟩⟩
  · rw [Body.length_code]
    refine .branch ((h.test negated).discreet _) (by omega) (by omega) ?_
    rintro j (rfl | rfl) name
    · exact iff_of_false (hnone _ (by omega) name) (hnone _ (by omega) name)
    · exact iff_of_false (hnone _ (by omega) name) (hnone _ (by omega) name)
  · refine hinner.mono fun i ins _ _ hrespects => ?_
    exact hrespects.widen (by omega) (by omega)
  · rw [Body.length_code]
    refine .jump (by omega) fun name => ?_
    exact iff_of_false (hnone _ (by omega) name) (hnone _ (by omega) name)

/-- At the instructions of a repeat block itself its counter is in scope and no inner one is. -/
theorem inScope_repeatLoop {inner : Body} {j : Nat}
    (hj : b < j ∧ j ≤ b + 2 ∨ b + 2 + inner.size ≤ j ∧ j ≤ b + 4 + inner.size) (name : Text) :
    InScope (⟨counter depth, b, b + 4 + inner.size⟩ :: inner.spans (b + 2) (depth + 1)) j name ↔
      name = counter depth := by
  have hnone : ¬ InScope (inner.spans (b + 2) (depth + 1)) j name :=
    inner.not_inScope (by omega) name
  constructor
  · rintro ⟨r, hr, hcovers, hcounter⟩
    rcases List.mem_cons.1 hr with rfl | hr
    · exact hcounter.symm
    · exact absurd ⟨r, hr, hcovers, hcounter⟩ hnone
  · rintro rfl
    have hcovers : Span.Covers ⟨counter depth, b, b + 4 + inner.size⟩ j := by
      constructor
      · change b < j
        omega
      · change j ≤ b + 4 + inner.size
        omega
    exact ⟨_, List.mem_cons_self, hcovers, rfl⟩

theorem not_inScope_repeatLoop {inner : Body} {j : Nat} (hj : j ≤ b ∨ b + 5 + inner.size ≤ j)
    (name : Text) :
    ¬ InScope (⟨counter depth, b, b + 4 + inner.size⟩ :: inner.spans (b + 2) (depth + 1)) j
      name := by
  rintro ⟨r, hr, hcovers, hcounter⟩
  rcases List.mem_cons.1 hr with rfl | hr
  · obtain ⟨hstart, hstop⟩ := hcovers
    simp only at hstart hstop
    omega
  · exact inner.not_inScope (by omega) name ⟨r, hr, hcovers, hcounter⟩

theorem respects_repeatLoop {count : Expr} (h : count.Plain) {inner : Body}
    (hinner : Placed
      (Respects (inner.spans (b + 2) (depth + 1)) (b + 2) (b + 2 + inner.size)) (b + 2)
      (inner.code (b + 2) (depth + 1))) :
    Placed
      (Respects (⟨counter depth, b, b + 4 + inner.size⟩ :: inner.spans (b + 2) (depth + 1)) b
        (b + (2 + inner.size + 3))) b
      ((Opening.repeatLoop count).wrap b depth (inner.code (b + 2) (depth + 1))) := by
  let own : Span := ⟨counter depth, b, b + 4 + inner.size⟩
  have hown : own ∈ own :: inner.spans (b + 2) (depth + 1) := List.mem_cons_self
  refine placed_cons.2 ⟨?_, placed_cons.2 ⟨?_, placed_append.2 ⟨?_, placed_cons.2 ⟨?_,
    placed_cons.2 ⟨?_, placed_cons.2 ⟨?_, placed_nil _ _⟩⟩⟩⟩⟩⟩
  · refine .count hown (Or.inl rfl) (h.discreet _) (by omega) fun name => ?_
    rw [inScope_repeatLoop (by omega), or_iff_right (not_inScope_repeatLoop (by omega) name)]
  · rw [Body.length_code]
    have hscope : InScope (own :: inner.spans (b + 2) (depth + 1)) (b + 1) (counter depth) :=
      (inScope_repeatLoop (by omega) (counter depth)).2 rfl
    refine .branch (discreet_counting hscope).1 (by omega) (by omega) ?_
    rintro j (rfl | rfl) name
    · rw [inScope_repeatLoop (by omega), inScope_repeatLoop (by omega)]
    · rw [inScope_repeatLoop (by omega), inScope_repeatLoop (by omega)]
  · refine hinner.mono fun i ins hi hlt hrespects => ?_
    rw [Body.length_code] at hlt
    have hcovers (j : Nat) (hlow : b + 2 ≤ j) (hhigh : j ≤ b + 2 + inner.size) :
        own.Covers j := by
      constructor
      · change b < j
        omega
      · change j ≤ b + 4 + inner.size
        omega
    refine hrespects.extend [own] ?_ ?_ (fun r => by simp [own]) (by omega) (by omega)
    · rintro r hr j hlow hhigh
      obtain rfl := List.mem_singleton.1 hr
      exact iff_of_true (hcovers j hlow hhigh) (hcovers i hi (by omega))
    · rintro r hr _ r' hr' hsame
      obtain rfl := List.mem_singleton.1 hr
      obtain ⟨k, hk, hname⟩ := (Body.within_of_mem_spans hr').counts
      have hdeep := Opening.counter_inj (hname.symm.trans hsame)
      omega
  · rw [Body.length_code]
    have hscope : InScope (own :: inner.spans (b + 2) (depth + 1)) (b + 1 + 1 + inner.size)
        (counter depth) := (inScope_repeatLoop (by omega) (counter depth)).2 rfl
    refine .count hown (Or.inr (Or.inl ?_)) (discreet_counting hscope).2 (by omega) fun name => ?_
    · change b + 1 + 1 + inner.size + 2 = b + 4 + inner.size
      omega
    · rw [inScope_repeatLoop (by omega), inScope_repeatLoop (by omega), or_self]
  · rw [Body.length_code]
    refine .jump (by omega) fun name => ?_
    rw [inScope_repeatLoop (by omega), inScope_repeatLoop (by omega)]
  · rw [Body.length_code]
    refine .unset hown (Or.inr (Or.inr ?_)) (by omega) fun name => ?_
    · change b + 1 + 1 + inner.size + 1 + 1 = b + 4 + inner.size
      omega
    · refine iff_of_false (not_inScope_repeatLoop (by omega) name) ?_
      rintro ⟨hscope, hne⟩
      exact hne ((inScope_repeatLoop (by omega) name).1 hscope)

theorem Opening.Plain.respects {opening : Opening} (h : opening.Plain) {inner : Body}
    (hinner : Placed
      (Respects (inner.spans (b + opening.lead) (opening.deepen depth)) (b + opening.lead)
        (b + opening.lead + inner.size))
      (b + opening.lead) (inner.code (b + opening.lead) (opening.deepen depth))) :
    Placed
      (Respects
        (opening.spans b depth inner.size ++
          inner.spans (b + opening.lead) (opening.deepen depth))
        b (b + (opening.lead + inner.size + opening.trail))) b
      (opening.wrap b depth (inner.code (b + opening.lead) (opening.deepen depth))) := by
  cases opening with
  | ifThen cond => exact respects_ifThen h hinner
  | loop negated cond => exact respects_loop h negated hinner
  | repeatLoop count => exact respects_repeatLoop h hinner

theorem respects_append (depth : Nat) {first second : List Instruction} {before after : List Span}
    {mid top : Nat} (hmid : b + first.length = mid) (htop : mid + second.length = top)
    (hfirst : Placed (Respects before b mid) b first)
    (hsecond : Placed (Respects after mid top) mid second)
    (hbefore : ∀ r ∈ before, r.Within b mid depth) (hafter : ∀ r ∈ after, r.Within mid top depth) :
    Placed (Respects (before ++ after) b top) b (first ++ second) := by
  refine placed_append.2 ⟨?_, ?_⟩
  · refine hfirst.mono fun i ins hi hlt hrespects => ?_
    refine hrespects.beside after ⟨hi, by omega⟩ ?_ ?_ (Nat.le_refl b) (by omega)
    · intro r hr j _ hj
      exact (hafter r hr).not_covers (Or.inl hj)
    · intro r
      rw [List.mem_append, or_comm]
  · rw [hmid]
    refine hsecond.mono fun i ins hi hlt hrespects => ?_
    refine hrespects.beside before ⟨hi, by omega⟩ ?_ ?_ (by omega) (Nat.le_refl top)
    · intro r hr j hj _
      exact (hbefore r hr).not_covers (Or.inr hj)
    · intro r
      rw [List.mem_append]

theorem respects_ifElse {cond : Expr} (h : cond.Plain) {yes no : Body}
    (hyes : Placed (Respects (yes.spans (b + 1) depth) (b + 1) (b + 1 + yes.size)) (b + 1)
      (yes.code (b + 1) depth))
    (hno : Placed (Respects (no.spans (b + 1 + yes.size + 1) depth) (b + 1 + yes.size + 1)
      (b + 1 + yes.size + 1 + no.size)) (b + 1 + yes.size + 1)
      (no.code (b + 1 + yes.size + 1) depth)) :
    Placed
      (Respects (yes.spans (b + 1) depth ++ no.spans (b + 1 + yes.size + 1) depth) b
        (b + 1 + yes.size + 1 + no.size)) b
      (.branch cond (b + 1 : Nat) (b + 1 + yes.size + 1 : Nat) :: (yes.code (b + 1) depth ++
        .jump (b + 1 + yes.size + 1 + no.size : Nat) ::
          no.code (b + 1 + yes.size + 1) depth)) := by
  have hnone (j : Nat) (hj : j ≤ b + 1 ∨ b + 1 + yes.size ≤ j ∧ j ≤ b + 1 + yes.size + 1 ∨
      b + 1 + yes.size + 1 + no.size ≤ j) (name : Text) :
      ¬ InScope (yes.spans (b + 1) depth ++ no.spans (b + 1 + yes.size + 1) depth) j name := by
    rw [inScope_append, not_or]
    exact ⟨yes.not_inScope (by omega) name, no.not_inScope (by omega) name⟩
  refine placed_cons.2 ⟨?_, placed_append.2 ⟨?_, placed_cons.2 ⟨?_, ?_⟩⟩⟩
  · refine .branch (h.discreet _) (by omega) (by omega) ?_
    rintro j (rfl | rfl) name
    · exact iff_of_false (hnone _ (by omega) name) (hnone _ (by omega) name)
    · exact iff_of_false (hnone _ (by omega) name) (hnone _ (by omega) name)
  · refine hyes.mono fun i ins hi hlt hrespects => ?_
    rw [Body.length_code] at hlt
    refine hrespects.beside (no.spans (b + 1 + yes.size + 1) depth) ⟨hi, by omega⟩ ?_ ?_
      (by omega) (by omega)
    · intro r hr j _ hj
      exact (Body.within_of_mem_spans hr).not_covers (by omega)
    · intro r
      rw [List.mem_append, or_comm]
  · rw [Body.length_code]
    refine .jump (by omega) fun name => ?_
    exact iff_of_false (hnone _ (by omega) name) (hnone _ (by omega) name)
  · rw [Body.length_code]
    refine hno.mono fun i ins hi hlt hrespects => ?_
    rw [Body.length_code] at hlt
    refine hrespects.beside (yes.spans (b + 1) depth) ⟨hi, by omega⟩ ?_ ?_
      (by omega) (by omega)
    · intro r hr j hj _
      exact (Body.within_of_mem_spans hr).not_covers (by omega)
    · intro r
      rw [List.mem_append]

/-- Every instruction of the code of a body respects the repeat blocks of the body. -/
theorem Body.Plain.respects {body : Body} (h : body.Plain) (b depth : Nat) :
    Placed (Respects (body.spans b depth) b (b + body.size)) b (body.code b depth) := by
  induction body generalizing b depth with
  | done => exact placed_nil _ _
  | simple statement next ih =>
      refine placed_cons.2 ⟨?_, ?_⟩
      · refine h.1.respects ?_ fun name => ?_
        · simp only [size]
          omega
        · exact iff_of_false (next.not_inScope (by omega) name) (next.not_inScope (by omega) name)
      · refine (ih h.2 (b + 1) depth).mono fun i ins _ _ hrespects => ?_
        simp only [size]
        exact hrespects.widen (by omega) (by omega)
  | block opening inner next ihi ihn =>
      have htop : b + (block opening inner next).size =
          b + (opening.lead + inner.size + opening.trail) + next.size := by
        simp only [size]
        omega
      rw [htop]
      refine respects_append depth (by simp) (by simp) (h.1.respects (ihi h.2.1 _ _))
        (ihn h.2.2 _ depth) ?_ fun r hr => within_of_mem_spans hr
      intro r hr
      rcases List.mem_append.1 hr with hr | hr
      · exact Opening.within_of_mem_spans hr
      · exact (within_of_mem_spans hr).mono (by omega) (by omega) (opening.le_deepen depth)
  | ifElse cond yes no next ihy ihn ihx =>
      have htop : b + (ifElse cond yes no next).size =
          b + 1 + yes.size + 1 + no.size + next.size := by
        simp only [size]
        omega
      have hcode : (ifElse cond yes no next).code b depth =
          (.branch cond (b + 1 : Nat) (b + 1 + yes.size + 1 : Nat) :: (yes.code (b + 1) depth ++
            .jump (b + 1 + yes.size + 1 + no.size : Nat) ::
              no.code (b + 1 + yes.size + 1) depth)) ++
            next.code (b + 1 + yes.size + 1 + no.size) depth := by simp [code]
      rw [hcode, htop]
      refine respects_append depth ?_ (by simp)
        (respects_ifElse h.1 (ihy h.2.1 _ depth) (ihn h.2.2.1 _ depth)) (ihx h.2.2.2 _ depth) ?_
        fun r hr => within_of_mem_spans hr
      · simp only [List.length_cons, List.length_append, length_code]
        omega
      · intro r hr
        rcases List.mem_append.1 hr with hr | hr
        · exact (within_of_mem_spans hr).mono (by omega) (by omega) (Nat.le_refl depth)
        · exact (within_of_mem_spans hr).mono (by omega) (by omega) (Nat.le_refl depth)

/-- A repeat block starts where its counter is assigned, counts down before it jumps back, and stops
where its counter is unset. -/
structure Span.Stands (program : Program) (r : Span) : Prop where
  opens : ∃ count, program[r.start]? = some (.assign r.counter count)
  counts : ∃ i, i + 2 = r.stop ∧
    program[i]? = some (.assign r.counter (.binary .sub (.var r.counter) (.literal 1)))
  closes : program[r.stop]? = some (.unset r.counter)

theorem Opening.stands_of_codeAt {program : Program} {opening : Opening}
    {inner : List Instruction} (h : CodeAt program b (opening.wrap b depth inner)) {r : Span}
    (hr : r ∈ opening.spans b depth inner.length) : r.Stands program := by
  cases opening with
  | repeatLoop count =>
      obtain rfl := List.mem_singleton.1 hr
      obtain ⟨hassign, hrest⟩ := placed_cons.1 h
      obtain ⟨_, hrest⟩ := placed_cons.1 hrest
      obtain ⟨hless, hrest⟩ := placed_cons.1 (placed_append.1 hrest).2
      obtain ⟨_, hrest⟩ := placed_cons.1 hrest
      obtain ⟨hunset, _⟩ := placed_cons.1 hrest
      have hstop : b + 4 + inner.length = b + 1 + 1 + inner.length + 1 + 1 := by omega
      refine ⟨⟨count, hassign⟩, ⟨_, hstop.symm, hless⟩, ?_⟩
      rw [hstop]
      exact hunset
  | _ => simp [spans] at hr

theorem Body.stands_of_codeAt {program : Program} {body : Body}
    (h : CodeAt program b (body.code b depth)) {r : Span} (hr : r ∈ body.spans b depth) :
    r.Stands program := by
  induction body generalizing b depth with
  | done => simp [spans] at hr
  | simple statement next ih => exact ih (placed_cons.1 h).2 hr
  | block opening inner next ihi ihn =>
      obtain ⟨hblock, hrest⟩ := placed_append.1 h
      rw [Opening.length_wrap, length_code] at hrest
      simp only [spans, List.mem_append] at hr
      rcases hr with (hr | hr) | hr
      · exact Opening.stands_of_codeAt hblock (by rwa [length_code])
      · exact ihi hblock.of_wrap hr
      · exact ihn hrest hr
  | ifElse cond yes no next ihy ihn ihx =>
      obtain ⟨_, hrest⟩ := placed_cons.1 h
      obtain ⟨hyes, hrest⟩ := placed_append.1 hrest
      obtain ⟨_, hrest⟩ := placed_cons.1 hrest
      obtain ⟨hno, hrest⟩ := placed_append.1 hrest
      rw [length_code] at hno hrest
      rw [length_code] at hrest
      simp only [spans, List.mem_append] at hr
      rcases hr with (hr | hr) | hr
      · exact ihy hyes hr
      · exact ihn hno hr
      · exact ihx hrest hr

end Code

end Tortoise
