import Tortoise.Proofs.Compile.Program
import Mathlib.Data.List.Nodup

/-!
# Open places and their owners

While blocks are open, some jumps and branches do not know yet where to go. Each such place is
remembered by one open block, which fills it in at its end, or hands it over to the jump that an
else emits. `Assembly.Sound` says this of code under construction; every block operation keeps it,
so no operation ever fails to fill a place, and none is left once all blocks are closed.
-/

namespace Tortoise

inductive Slot where
  | target
  | onTrue
  | onFalse
deriving DecidableEq

structure Hole where
  index : Nat
  slot : Slot
deriving DecidableEq

namespace Instruction

def place? (ins : Instruction) (slot : Slot) : Option Int :=
  match ins.command, slot with
  | .jump, .target => some ins.target
  | .branch, .onTrue => some ins.onTrue
  | .branch, .onFalse => some ins.onFalse
  | _, _ => none

def fill (ins : Instruction) (place : Int) : Slot → Instruction
  | .target => { ins with target := place }
  | .onTrue => { ins with onTrue := place }
  | .onFalse => { ins with onFalse := place }

def reset (ins : Instruction) : Instruction := { ins with target := 0, onTrue := 0, onFalse := 0 }

structure Fits (size : Nat) (ins : Instruction) : Prop where
  complete : ins.reset.flaw? 0 = none
  places : ∀ slot place, ins.place? slot = some place → place = unresolved ∨ inRange size place

variable {ins : Instruction} {slot : Slot} {size : Nat} {place : Int}

@[simp] theorem reset_fill (ins : Instruction) (place : Int) (slot : Slot) :
    (ins.fill place slot).reset = ins.reset := by
  cases slot <;> rfl

theorem place?_fill (ins : Instruction) (place : Int) (slot other : Slot) :
    (ins.fill place slot).place? other =
      if other = slot then (ins.place? slot).map (fun _ => place) else ins.place? other := by
  cases hcommand : ins.command <;> cases slot <;> cases other <;>
    simp [fill, place?, hcommand]

theorem inRange_iff : inRange size place = true ↔ 0 ≤ place ∧ place ≤ size := by
  simp [inRange]

theorem inRange_natCast {index : Nat} (h : index ≤ size) : inRange size index = true :=
  inRange_iff.2 ⟨by omega, by omega⟩

theorem natCast_ne_unresolved (index : Nat) : (index : Int) ≠ unresolved := by
  unfold unresolved
  omega

/-- A valid instruction is complete, and all its places are in range. -/
theorem flaw?_eq_none_iff : ins.flaw? size = none ↔
    ins.reset.flaw? 0 = none ∧ ∀ slot place, ins.place? slot = some place → inRange size place := by
  have hstart : inRange 0 0 = true := rfl
  constructor
  · intro h
    cases hcommand : ins.command with
    | jump =>
        refine ⟨by simp [flaw?, reset, hcommand, hstart], fun slot place hplace => ?_⟩
        cases slot <;> simp_all [flaw?, place?]
    | branch =>
        have hexpr : ins.expr.isAbsent = false := by
          cases hexpr : ins.expr.isAbsent <;> simp_all [flaw?]
        refine ⟨by simp [flaw?, reset, hcommand, hstart, hexpr], fun slot place hplace => ?_⟩
        cases slot <;> simp_all [flaw?, place?]
    | assign | action | unset | unknown =>
        simp_all [flaw?, reset, place?]
  · rintro ⟨hcomplete, hplaces⟩
    cases hcommand : ins.command with
    | jump =>
        have htarget := hplaces .target ins.target (by simp [place?, hcommand])
        simp [flaw?, hcommand, htarget]
    | branch =>
        have htrue := hplaces .onTrue ins.onTrue (by simp [place?, hcommand])
        have hfalse := hplaces .onFalse ins.onFalse (by simp [place?, hcommand])
        simp_all [flaw?, reset]
    | assign | action | unset | unknown => simp_all [flaw?, reset]

theorem Fits.mono {size' : Nat} (h : ins.Fits size) (hsize : size ≤ size') : ins.Fits size' := by
  refine ⟨h.complete, fun slot place hplace => (h.places slot place hplace).imp_right fun hin => ?_⟩
  rw [inRange_iff] at hin ⊢
  omega

theorem Fits.fill (h : ins.Fits size) (hplace : inRange size place) (slot : Slot) :
    (ins.fill place slot).Fits size := by
  refine ⟨by rw [reset_fill, h.complete], fun other found hfound => ?_⟩
  rw [place?_fill] at hfound
  split at hfound
  next =>
    obtain ⟨-, -, rfl⟩ := Option.map_eq_some_iff.1 hfound
    exact .inr hplace
  next => exact h.places other found hfound

/-- Without open places an instruction that fits is valid. -/
theorem Fits.flaw?_eq_none (h : ins.Fits size)
    (hclosed : ∀ slot, ins.place? slot ≠ some unresolved) : ins.flaw? size = none := by
  refine flaw?_eq_none_iff.2 ⟨h.complete, fun slot place hplace => ?_⟩
  obtain rfl | hin := h.places slot place hplace
  · exact absurd hplace (hclosed slot)
  · exact hin

theorem fits_of_flaw? (h : ins.flaw? size = none) : ins.Fits size := by
  obtain ⟨hcomplete, hplaces⟩ := flaw?_eq_none_iff.1 h
  exact ⟨hcomplete, fun slot place hplace => .inr (hplaces slot place hplace)⟩

theorem place?_eq_none (hjump : ins.command ≠ .jump) (hbranch : ins.command ≠ .branch) :
    ins.place? slot = none := by
  cases hcommand : ins.command <;> simp_all [place?]

theorem fits_branch {cond : Expr} {yes : Nat} (hcond : cond.isAbsent = false) (hyes : yes ≤ size) :
    (branch cond yes unresolved).Fits size := by
  refine ⟨by simp [flaw?, reset, branch, hcond, inRange], fun slot place hplace => ?_⟩
  cases slot with
  | target => cases hplace
  | onTrue =>
      obtain rfl := Option.some.inj hplace
      exact .inr (inRange_natCast hyes)
  | onFalse => exact .inl (Option.some.inj hplace).symm

theorem fits_jump (size : Nat) : (jump unresolved).Fits size := by
  refine ⟨rfl, fun slot place hplace => ?_⟩
  cases slot with
  | target => exact .inl (Option.some.inj hplace).symm
  | onTrue | onFalse => cases hplace

theorem place?_branch_iff {cond : Expr} {yes : Nat} :
    (branch cond yes unresolved).place? slot = some unresolved ↔ slot = .onFalse := by
  cases slot with
  | target | onFalse => simp [place?, branch]
  | onTrue => simp [place?, branch, natCast_ne_unresolved]

theorem place?_jump_iff : (jump unresolved).place? slot = some unresolved ↔ slot = .target := by
  cases slot <;> simp [place?, jump]

end Instruction

namespace Buffer

open Instruction (unresolved inRange)

variable {b : Buffer} {h other : Hole} {ins : Instruction} {place : Int}

def Open (b : Buffer) (h : Hole) : Prop :=
  ∃ ins, b.code[h.index]? = some ins ∧ ins.place? h.slot = some unresolved

def Fits (b : Buffer) : Prop :=
  ∀ (i : Nat) (ins : Instruction), b.code[i]? = some ins → ins.Fits b.size

def fill (b : Buffer) (h : Hole) (place : Int) : Buffer :=
  ⟨b.code.modify h.index (·.fill place h.slot)⟩

@[simp] theorem size_emit (b : Buffer) (ins : Instruction) : (b.emit ins).size = b.size + 1 := by
  simp [emit, size]

@[simp] theorem size_fill (b : Buffer) (h : Hole) (place : Int) :
    (b.fill h place).size = b.size := by
  simp [fill, size]

theorem getElem?_emit (b : Buffer) (ins : Instruction) (i : Nat) :
    (b.emit ins).code[i]? = if i = b.size then some ins else b.code[i]? :=
  Array.getElem?_push

theorem getElem?_fill (b : Buffer) (h : Hole) (place : Int) (i : Nat) :
    (b.fill h place).code[i]? =
      if h.index = i then b.code[i]?.map (·.fill place h.slot) else b.code[i]? :=
  Array.getElem?_modify

/-- Emitting adds the open places of the instruction. -/
theorem open_emit : (b.emit ins).Open h ↔
    b.Open h ∨ h.index = b.size ∧ ins.place? h.slot = some unresolved := by
  unfold Open
  rw [getElem?_emit]
  by_cases hi : h.index = b.size
  · have hnone : b.code[h.index]? = none := by
      rw [hi]
      exact Array.getElem?_eq_none (Nat.le_refl _)
    rw [if_pos hi, hnone]
    simp [hi]
  · rw [if_neg hi]
    simp [hi]

/-- An instruction with one open place adds this place. -/
theorem open_emit_of {slot : Slot}
    (hins : ∀ other, ins.place? other = some unresolved ↔ other = slot) :
    (b.emit ins).Open h ↔ b.Open h ∨ h = ⟨b.size, slot⟩ := by
  rw [open_emit, hins]
  obtain ⟨index, other⟩ := h
  simp

/-- Filling a place leaves the other ones as they are. -/
theorem open_fill (hplace : place ≠ unresolved) :
    (b.fill h place).Open other ↔ b.Open other ∧ other ≠ h := by
  unfold Open
  rw [getElem?_fill]
  by_cases hi : h.index = other.index
  · rw [if_pos hi]
    cases b.code[other.index]? with
    | none => simp
    | some ins =>
        simp only [Option.map_some, Option.some.injEq, exists_eq_left', Instruction.place?_fill]
        by_cases hslot : other.slot = h.slot
        · have hother : other = h := by
            cases h
            cases other
            simp_all
          simp [hother, hplace]
        · have hother : other ≠ h := fun heq => hslot (congrArg Hole.slot heq)
          simp [hslot, hother]
  · have hother : other ≠ h := fun heq => hi (congrArg Hole.index heq).symm
    simp [hi, hother]

theorem Fits.emit (hb : b.Fits) (hins : ins.Fits (b.size + 1)) : (b.emit ins).Fits := by
  intro i found hfound
  rw [size_emit]
  rw [getElem?_emit] at hfound
  split at hfound
  next => exact Option.some.inj hfound ▸ hins
  next => exact (hb i found hfound).mono (Nat.le_succ _)

theorem Fits.fill (hb : b.Fits) (hplace : inRange b.size place) : (b.fill h place).Fits := by
  intro i found hfound
  rw [size_fill]
  rw [getElem?_fill] at hfound
  split at hfound
  next =>
    obtain ⟨ins, hins, rfl⟩ := Option.map_eq_some_iff.1 hfound
    exact (hb i ins hins).fill hplace h.slot
  next => exact hb i found hfound

theorem setIfInBounds_eq_fill {i : Nat} (hins : b.code[i]? = some ins) (slot : Slot)
    (place : Int) : ⟨b.code.setIfInBounds i (ins.fill place slot)⟩ = b.fill ⟨i, slot⟩ place := by
  refine congrArg Buffer.mk (Array.ext_getElem? fun j => ?_)
  rw [Array.getElem?_setIfInBounds, Array.getElem?_modify]
  by_cases hj : i = j
  · subst hj
    rw [if_pos rfl, if_pos rfl, if_pos (Array.getElem?_eq_some_iff.1 hins).1, hins, Option.map_some]
  · rw [if_neg hj, if_neg hj]

/-- The open false place of a branch can be filled in. -/
theorem patchBranch_of_open {i : Nat} (hopen : b.Open ⟨i, .onFalse⟩) (place : Int) :
    b.patchBranch i place = .ok (b.fill ⟨i, .onFalse⟩ place) := by
  obtain ⟨ins, hins, hplace⟩ := hopen
  obtain ⟨hcommand, hfalse⟩ : ins.command = .branch ∧ ins.onFalse = unresolved := by
    cases hcommand : ins.command <;> simp_all [Instruction.place?]
  rw [patchBranch, hins]
  simp only [ne_eq, hcommand, hfalse, not_true, if_false]
  rw [← hcommand]
  exact congrArg Except.ok (setIfInBounds_eq_fill hins .onFalse place)

/-- The open target of a jump can be filled in. -/
theorem patchJump_of_open {i : Nat} (hopen : b.Open ⟨i, .target⟩) (place : Int) :
    b.patchJump i place = .ok (b.fill ⟨i, .target⟩ place) := by
  obtain ⟨ins, hins, hplace⟩ := hopen
  obtain ⟨hcommand, htarget⟩ : ins.command = .jump ∧ ins.target = unresolved := by
    cases hcommand : ins.command <;> simp_all [Instruction.place?]
  rw [patchJump, hins]
  simp only [ne_eq, hcommand, htarget, not_true, if_false]
  rw [← hcommand]
  exact congrArg Except.ok (setIfInBounds_eq_fill hins .target place)

/-- Code is a program if all its instructions are valid. -/
theorem program_eq_ok_iff {p : Program} :
    b.program = .ok p ↔ p = b.code ∧ ∀ ins ∈ b.code, ins.flaw? b.size = none := by
  have hinvalid : b.code.invalid? = none ↔ ∀ ins ∈ b.code, ins.flaw? b.size = none := by
    simp only [Program.invalid?, List.findSome?_eq_none_iff, Option.map_eq_none_iff]
    constructor
    · intro h ins hmem
      obtain ⟨i, hi⟩ := Array.getElem?_of_mem hmem
      refine h (ins, i) (List.mk_mem_zipIdx_iff_getElem?.2 ?_)
      rwa [Array.getElem?_toList]
    · rintro h ⟨ins, i⟩ hmem
      exact h ins (Array.mem_toList_iff.1 (List.fst_mem_of_mem_zipIdx hmem))
  unfold program
  rw [← hinvalid]
  cases b.code.invalid? with
  | none => simp [eq_comm]
  | some e => simp

/-- Code that fits is a program as soon as no place is open. -/
theorem Fits.program_iff (hb : b.Fits) : (∃ p, b.program = .ok p) ↔ ∀ h, ¬ b.Open h := by
  simp only [program_eq_ok_iff, exists_eq_left]
  constructor
  · rintro hvalid h ⟨ins, hins, hplace⟩
    obtain ⟨-, hplaces⟩ := Instruction.flaw?_eq_none_iff.1 (hvalid ins (Array.mem_of_getElem? hins))
    cases hplaces h.slot unresolved hplace
  · intro hclosed ins hmem
    obtain ⟨i, hi⟩ := Array.getElem?_of_mem hmem
    exact (hb i ins hi).flaw?_eq_none fun slot hplace => hclosed ⟨i, slot⟩ ⟨ins, hi, hplace⟩

end Buffer

namespace Block

def pending : Block → Hole
  | ifThen branch none => ⟨branch, .onFalse⟩
  | ifThen _ (some elseJump) => ⟨elseJump, .target⟩
  | loop _ branch => ⟨branch, .onFalse⟩
  | repeatLoop _ branch => ⟨branch, .onFalse⟩

def holes : Block → List Hole
  | ifThen branch none => [⟨branch, .onFalse⟩]
  | ifThen branch (some elseJump) => [⟨elseJump, .target⟩, ⟨branch, .onFalse⟩]
  | loop _ branch => [⟨branch, .onFalse⟩]
  | repeatLoop _ branch => [⟨branch, .onFalse⟩]

theorem pending_mem_holes (blk : Block) : blk.pending ∈ blk.holes := by
  unfold pending
  split <;> exact List.mem_cons_self

def Named : Block → Prop
  | repeatLoop counter _ => counter.isEmpty = false
  | _ => True

end Block

theorem BlockStack.pop?_eq_some_iff {s t : BlockStack} {blk : Block} :
    s.pop? = some (blk, t) ↔ s.blocks = blk :: t.blocks ∧
      t.repeats = if blk.kind = .repeatLoop then s.repeats - 1 else s.repeats := by
  obtain ⟨blocks, repeats⟩ := s
  obtain ⟨rest, left⟩ := t
  cases blocks with
  | nil => simp [pop?]
  | cons top blocks =>
      simp only [pop?, Option.some.injEq, Prod.mk.injEq, mk.injEq, List.cons.injEq]
      constructor
      · rintro ⟨rfl, rfl, rfl⟩
        exact ⟨⟨rfl, rfl⟩, rfl⟩
      · rintro ⟨⟨rfl, rfl⟩, rfl⟩
        exact ⟨rfl, rfl, rfl⟩

structure Assembly where
  code : Buffer := {}
  blocks : BlockStack := {}
deriving DecidableEq

namespace Assembly

variable {a : Assembly} {blk : Block} {rest : List Block} {ins : Instruction} {h : Hole}

/-- The open places are those that the open blocks have yet to fill in. No place is remembered
twice, and there is nothing else wrong with the code. -/
structure Sound (a : Assembly) : Prop where
  fits : a.code.Fits
  open_iff : ∀ h, a.code.Open h ↔ ∃ blk ∈ a.blocks.blocks, blk.pending = h
  nodup : (a.blocks.blocks.flatMap Block.holes).Nodup
  index_lt : ∀ blk ∈ a.blocks.blocks, ∀ h ∈ blk.holes, h.index < a.code.size
  repeats : a.blocks.repeats = a.blocks.blocks.countP (·.kind = .repeatLoop)
  named : ∀ blk ∈ a.blocks.blocks, blk.Named

theorem sound_empty : Sound {} where
  fits _ _ hins := nomatch hins
  open_iff h := by
    constructor
    · rintro ⟨ins, hins, -⟩
      cases hins
    · rintro ⟨blk, hblk, -⟩
      cases hblk
  nodup := List.nodup_nil
  index_lt _ hblk := nomatch hblk
  repeats := rfl
  named _ hblk := nomatch hblk

namespace Sound

theorem pending_open (hs : a.Sound) (hblk : blk ∈ a.blocks.blocks) : a.code.Open blk.pending :=
  (hs.open_iff _).2 ⟨blk, hblk, rfl⟩

/-- A place at the end of the code is remembered by no block. -/
theorem fresh (hs : a.Sound) {slot : Slot} :
    ⟨a.code.size, slot⟩ ∉ a.blocks.blocks.flatMap Block.holes := by
  intro hmem
  obtain ⟨blk, hblk, hhole⟩ := List.mem_flatMap.1 hmem
  exact Nat.lt_irrefl _ (hs.index_lt blk hblk _ hhole)

/-- Instructions without open places may be emitted. -/
theorem emit (hs : a.Sound) (hins : ins.flaw? (a.code.size + 1) = none) :
    Sound ⟨a.code.emit ins, a.blocks⟩ where
  fits := hs.fits.emit (Instruction.fits_of_flaw? hins)
  open_iff h := by
    have hclosed : ¬ ins.place? h.slot = some Instruction.unresolved := fun hplace =>
      (nomatch (Instruction.flaw?_eq_none_iff.1 hins).2 _ _ hplace)
    rw [Buffer.open_emit, ← hs.open_iff]
    simp [hclosed]
  nodup := hs.nodup
  index_lt blk hblk h hh := by
    rw [Buffer.size_emit]
    exact Nat.lt_succ_of_lt (hs.index_lt blk hblk h hh)
  repeats := hs.repeats
  named := hs.named

/-- A block that starts with a branch may be opened. -/
theorem enter (hs : a.Sound) {cond : Expr} (hcond : cond.isAbsent = false) (hnamed : blk.Named)
    (hpending : blk.pending = ⟨a.code.size, .onFalse⟩)
    (hholes : blk.holes = [⟨a.code.size, .onFalse⟩]) :
    Sound ⟨a.code.emitBranch cond, a.blocks.push blk⟩ where
  fits := hs.fits.emit (Instruction.fits_branch hcond (Nat.le_refl _))
  open_iff h := by
    refine (Buffer.open_emit_of fun _ => Instruction.place?_branch_iff).trans ?_
    rw [hs.open_iff, BlockStack.push, List.exists_mem_cons_iff, hpending, or_comm, eq_comm]
  nodup := by
    rw [BlockStack.push, List.flatMap_cons, hholes]
    exact List.nodup_cons.2 ⟨hs.fresh, hs.nodup⟩
  index_lt := by
    simp only [Buffer.emitBranch, Buffer.size_emit, BlockStack.push, List.forall_mem_cons, hholes]
    refine ⟨⟨Nat.lt_succ_self _, List.forall_mem_nil _⟩, fun other hother h hh => ?_⟩
    exact Nat.lt_succ_of_lt (hs.index_lt other hother h hh)
  repeats := by
    rw [BlockStack.push, List.countP_cons, ← hs.repeats]
    by_cases hkind : blk.kind = .repeatLoop
    · simp [hkind]
    · simp [hkind]
  named := List.forall_mem_cons.2 ⟨hnamed, hs.named⟩

/-- The innermost block may fill in its place and be closed. -/
theorem leave (hs : a.Sound) {blocks : BlockStack} (hpop : a.blocks.pop? = some (blk, blocks)) :
    Sound ⟨a.code.fill blk.pending a.code.size, blocks⟩ := by
  obtain ⟨hblocks, hrepeats⟩ := BlockStack.pop?_eq_some_iff.1 hpop
  have hnodup := hs.nodup
  rw [hblocks, List.flatMap_cons, List.nodup_append'] at hnodup
  obtain ⟨-, hrest, hdisjoint⟩ := hnodup
  have hin := Instruction.inRange_natCast (Nat.le_refl a.code.size)
  refine ⟨hs.fits.fill hin, fun h => ?_, hrest, fun other hother h hh => ?_, ?_, ?_⟩
  · rw [Buffer.open_fill (Instruction.natCast_ne_unresolved _), hs.open_iff, hblocks,
      List.exists_mem_cons_iff]
    constructor
    · rintro ⟨rfl | hother, hne⟩
      · exact absurd rfl hne
      · exact hother
    · rintro ⟨other, hother, rfl⟩
      refine ⟨.inr ⟨other, hother, rfl⟩, fun heq => ?_⟩
      exact hdisjoint blk.pending_mem_holes
        (List.mem_flatMap.2 ⟨other, hother, heq ▸ other.pending_mem_holes⟩)
  · rw [Buffer.size_fill]
    exact hs.index_lt other (hblocks ▸ List.mem_cons_of_mem _ hother) h hh
  · rw [hrepeats, hs.repeats, hblocks, List.countP_cons]
    by_cases hkind : blk.kind = .repeatLoop
    · simp [hkind]
    · simp [hkind]
  · exact fun other hother => hs.named other (hblocks ▸ List.mem_cons_of_mem _ hother)

/-- The innermost block may hand over its place to a jump. -/
theorem handOver (hs : a.Sound) {branch : Nat}
    (hblocks : a.blocks.blocks = .ifThen branch none :: rest) :
    Sound ⟨(a.code.emit (.jump Instruction.unresolved)).fill ⟨branch, .onFalse⟩
        (a.code.size + 1 : Nat), a.blocks.setTop (.ifThen branch (some a.code.size))⟩ := by
  have hfits := hs.fits.emit (Instruction.fits_jump (a.code.size + 1))
  have hin := Instruction.inRange_natCast
    (Nat.le_of_eq (Buffer.size_emit a.code (.jump Instruction.unresolved)).symm)
  have hnodup := hs.nodup
  rw [hblocks, List.flatMap_cons] at hnodup
  have hfresh := @fresh a hs .target
  rw [hblocks] at hfresh
  refine ⟨hfits.fill hin, fun h => ?_, ?_, ?_, ?_, ?_⟩
  · rw [Buffer.open_fill (Instruction.natCast_ne_unresolved _),
      Buffer.open_emit_of fun _ => Instruction.place?_jump_iff, hs.open_iff, BlockStack.setTop,
      hblocks, List.exists_mem_cons_iff, List.tail_cons, List.exists_mem_cons_iff]
    constructor
    · rintro ⟨(rfl | hother) | rfl, hne⟩
      · exact absurd rfl hne
      · exact .inr hother
      · exact .inl rfl
    · rintro (rfl | ⟨other, hother, rfl⟩)
      · exact ⟨.inr rfl, nofun⟩
      · refine ⟨.inl (.inr ⟨other, hother, rfl⟩), fun heq => (List.nodup_cons.1 hnodup).1 ?_⟩
        exact List.mem_flatMap.2 ⟨other, hother, heq ▸ other.pending_mem_holes⟩
  · rw [BlockStack.setTop, hblocks, List.flatMap_cons]
    exact List.nodup_cons.2 ⟨hfresh, hnodup⟩
  · have hbefore := hs.index_lt
    simp only [hblocks, List.forall_mem_cons] at hbefore
    simp only [BlockStack.setTop, hblocks, List.tail_cons, List.forall_mem_cons, Buffer.size_fill,
      Buffer.size_emit]
    refine ⟨fun h hh => ?_, fun other hother h hh => ?_⟩
    · rcases List.mem_cons.1 hh with rfl | hh
      · exact Nat.lt_succ_self _
      · exact Nat.lt_succ_of_lt (hbefore.1 h hh)
    · exact Nat.lt_succ_of_lt (hbefore.2 other hother h hh)
  · rw [BlockStack.setTop, hblocks, List.tail_cons, List.countP_cons, hs.repeats, hblocks,
      List.countP_cons]
    rfl
  · have hnamed := hs.named
    rw [hblocks] at hnamed
    rw [BlockStack.setTop, hblocks]
    exact List.forall_mem_cons.2 ⟨trivial, (List.forall_mem_cons.1 hnamed).2⟩

/-- The end of the innermost block succeeds. -/
theorem close (hs : a.Sound) {blocks : BlockStack} (hpop : a.blocks.pop? = some (blk, blocks)) :
    ∃ code, blk.close a.code = (code, .ok ()) ∧ Sound ⟨code, blocks⟩ := by
  have hmem : blk ∈ a.blocks.blocks := by
    rw [(BlockStack.pop?_eq_some_iff.1 hpop).1]
    exact List.mem_cons_self
  have hlt := hs.index_lt blk hmem _ blk.pending_mem_holes
  have hnamed := hs.named blk hmem
  cases blk with
  | ifThen branch elseJump =>
      have hopen := hs.pending_open hmem
      cases elseJump with
      | none =>
          refine ⟨_, ?_, hs.leave hpop⟩
          rw [Block.close, Buffer.patchBranch_of_open hopen]
          rfl
      | some elseJump =>
          refine ⟨_, ?_, hs.leave hpop⟩
          rw [Block.close, Buffer.patchJump_of_open hopen]
          rfl
  | loop negated branch =>
      have hjump : Sound ⟨a.code.emit (.jump branch), a.blocks⟩ :=
        hs.emit (Instruction.flaw?_jump (Nat.le_succ_of_le (Nat.le_of_lt hlt)))
      have hopen := hjump.pending_open hmem
      refine ⟨_, ?_, hjump.leave hpop⟩
      simp only [Block.close]
      rw [Buffer.patchBranch_of_open hopen]
      rfl
  | repeatLoop counter branch =>
      have hstep : Sound ⟨a.code.emit
          (.assign counter (.binary .sub (.var counter) (.literal 1))), a.blocks⟩ :=
        hs.emit (Instruction.flaw?_assign hnamed rfl)
      have hjump := hstep.emit (@Instruction.flaw?_jump _ branch (by
        simp only [Buffer.size_emit]
        exact Nat.le_of_lt (Nat.lt_add_right 2 hlt)))
      have hopen := hjump.pending_open hmem
      refine ⟨_, ?_, (hjump.leave hpop).emit (Instruction.flaw?_unset hnamed)⟩
      simp only [Block.close]
      rw [Buffer.patchBranch_of_open hopen]
      rfl

end Sound

end Assembly

inductive BlockOperation where
  | emit (ins : Instruction)
  | openIf (cond : Expr)
  | openWhile (cond : Expr)
  | openUntil (cond : Expr)
  | openRepeat (count : Expr)
  /-- The else of the innermost block. -/
  | otherwise
  /-- The end of the innermost block. -/
  | close
deriving DecidableEq

namespace BlockOperation

/-- Emitted instructions are valid and do not jump, and conditions and counts are there. An until
loop complements what it is given, so it always has a condition. -/
def Valid : BlockOperation → Prop
  | emit ins => ins.command ≠ .jump ∧ ins.command ≠ .branch ∧ ins.flaw? 0 = none
  | openIf cond | openWhile cond => cond.isAbsent = false
  | openRepeat count => count.isAbsent = false
  | openUntil _ | otherwise | close => True

theorem valid_otherwise : Valid .otherwise := trivial

theorem valid_close : Valid .close := trivial

end BlockOperation

namespace Assembly

def enter (a : Assembly) (opening : Buffer × Block) : Assembly :=
  ⟨opening.1, a.blocks.push opening.2⟩

/-- The assembly after an operation, and whether the operation succeeded. An else needs an if block
on top, and an end needs a block. -/
def apply (a : Assembly) : BlockOperation → Option (Assembly × Except BlockError Unit)
  | .emit ins => some (⟨a.code.emit ins, a.blocks⟩, .ok ())
  | .openIf cond => some (a.enter (a.code.openIf cond), .ok ())
  | .openWhile cond => some (a.enter (a.code.openWhile cond), .ok ())
  | .openUntil cond => some (a.enter (a.code.openUntil cond), .ok ())
  | .openRepeat count => some (a.enter (a.code.openRepeat count (a.blocks.repeats + 1)), .ok ())
  | .otherwise =>
    match a.blocks.top? with
    | some (.ifThen branch elseJump) =>
      let ((code, outcome), elseJump) := a.code.elseArm branch elseJump
      some (⟨code, a.blocks.setTop (.ifThen branch elseJump)⟩, outcome)
    | _ => none
  | .close =>
    match a.blocks.pop? with
    | some (blk, blocks) =>
      let (code, outcome) := blk.close a.code
      some (⟨code, blocks⟩, outcome)
    | none => none

def run (a : Assembly) (ops : List BlockOperation) : Option Assembly :=
  ops.foldlM (fun a op => (a.apply op).map Prod.fst) a

variable {a a' : Assembly} {op : BlockOperation} {outcome : Except BlockError Unit}

def HasElse (a : Assembly) : Prop :=
  ∃ branch elseJump, a.blocks.top? = some (.ifThen branch (some elseJump))

theorem apply_otherwise_of_hasElse (h : a.HasElse) :
    a.apply .otherwise = some (a, .error .duplicateElse) := by
  obtain ⟨branch, elseJump, htop⟩ := h
  obtain ⟨code, ⟨blocks, repeats⟩⟩ := a
  obtain ⟨rest, rfl⟩ : ∃ rest, blocks = .ifThen branch (some elseJump) :: rest :=
    List.head?_eq_some_iff.1 htop
  rfl

/-- The first else of an if block succeeds. -/
theorem Sound.otherwise {branch : Nat} (hs : a.Sound)
    (htop : a.blocks.top? = some (.ifThen branch none)) :
    ∃ a', a.apply .otherwise = some (a', .ok ()) ∧ a'.Sound := by
  obtain ⟨rest, hblocks⟩ : ∃ rest, a.blocks.blocks = .ifThen branch none :: rest :=
    List.head?_eq_some_iff.1 htop
  have hmem : .ifThen branch none ∈ a.blocks.blocks := hblocks ▸ List.mem_cons_self
  have hopen : (a.code.emit (.jump Instruction.unresolved)).Open ⟨branch, .onFalse⟩ :=
    Buffer.open_emit.2 (.inl (hs.pending_open hmem))
  refine ⟨_, ?_, hs.handOver hblocks⟩
  simp only [Assembly.apply, htop, Buffer.elseArm]
  rw [Buffer.patchBranch_of_open hopen, Buffer.size_emit]
  rfl

/-- What a block operation does to a sound assembly. -/
theorem Sound.apply (hs : a.Sound) (hop : op.Valid) (h : a.apply op = some (a', outcome)) :
    a'.Sound ∧ (outcome = .ok () ∨
      outcome = .error .duplicateElse ∧ op = .otherwise ∧ a.HasElse ∧ a' = a) := by
  cases op with
  | emit ins =>
      obtain ⟨rfl, rfl⟩ := Prod.mk.inj (Option.some.inj h)
      obtain ⟨hjump, hbranch, hvalid⟩ := hop
      refine ⟨hs.emit (Instruction.flaw?_eq_none_iff.2 ?_), .inl rfl⟩
      refine ⟨(Instruction.flaw?_eq_none_iff.1 hvalid).1, fun slot place hplace => ?_⟩
      rw [Instruction.place?_eq_none hjump hbranch] at hplace
      cases hplace
  | openIf cond =>
      obtain ⟨rfl, rfl⟩ := Prod.mk.inj (Option.some.inj h)
      exact ⟨hs.enter hop trivial rfl rfl, .inl rfl⟩
  | openWhile cond =>
      obtain ⟨rfl, rfl⟩ := Prod.mk.inj (Option.some.inj h)
      exact ⟨hs.enter hop trivial rfl rfl, .inl rfl⟩
  | openUntil cond =>
      obtain ⟨rfl, rfl⟩ := Prod.mk.inj (Option.some.inj h)
      exact ⟨hs.enter rfl trivial rfl rfl, .inl rfl⟩
  | openRepeat count =>
      obtain ⟨rfl, rfl⟩ := Prod.mk.inj (Option.some.inj h)
      have hassign := hs.emit (Instruction.flaw?_assign
        (Opening.isEmpty_counter a.blocks.repeats) hop)
      exact ⟨hassign.enter rfl rfl rfl rfl, .inl rfl⟩
  | otherwise =>
      cases htop : a.blocks.top? with
      | none => simp [Assembly.apply, htop] at h
      | some blk =>
          cases blk with
          | loop negated branch => simp [Assembly.apply, htop] at h
          | repeatLoop counter branch => simp [Assembly.apply, htop] at h
          | ifThen branch elseJump =>
              cases elseJump with
              | none =>
                  obtain ⟨next, hnext, hsound⟩ := hs.otherwise htop
                  obtain ⟨rfl, rfl⟩ := Prod.mk.inj (Option.some.inj (hnext.symm.trans h))
                  exact ⟨hsound, .inl rfl⟩
              | some elseJump =>
                  have helse : a.HasElse := ⟨branch, elseJump, htop⟩
                  rw [apply_otherwise_of_hasElse helse] at h
                  obtain ⟨rfl, rfl⟩ := Prod.mk.inj (Option.some.inj h)
                  exact ⟨hs, .inr ⟨rfl, rfl, helse, rfl⟩⟩
  | close =>
      cases hpop : a.blocks.pop? with
      | none => simp [Assembly.apply, hpop] at h
      | some popped =>
          obtain ⟨blk, blocks⟩ := popped
          obtain ⟨code, hclose, hsound⟩ := hs.close hpop
          simp only [Assembly.apply, hpop, hclose] at h
          obtain ⟨rfl, rfl⟩ := Prod.mk.inj (Option.some.inj h)
          exact ⟨hsound, .inl rfl⟩

/-- Operations keep an assembly sound. -/
theorem Sound.run {ops : List BlockOperation} (hs : a.Sound) (hops : ∀ op ∈ ops, op.Valid)
    (h : a.run ops = some a') : a'.Sound := by
  induction ops generalizing a with
  | nil =>
      obtain rfl := Option.some.inj h
      exact hs
  | cons op ops ih =>
      obtain ⟨hop, hops⟩ := List.forall_mem_cons.1 hops
      rw [Assembly.run, List.foldlM_cons, Option.bind_eq_bind, Option.bind_eq_some_iff] at h
      obtain ⟨next, hnext, hrest⟩ := h
      obtain ⟨⟨_, outcome⟩, happly, rfl⟩ := Option.map_eq_some_iff.1 hnext
      exact ih (hs.apply hop happly).1 hops hrest

/-- Lists behind one another without duplicates share no member. -/
theorem eq_of_nodup_flatMap {α β : Type} {f : α → List β} {xs : List α} {i j : Nat} {x y : α}
    {b : β} (h : (xs.flatMap f).Nodup) (hi : xs[i]? = some x) (hj : xs[j]? = some y) (hx : b ∈ f x)
    (hy : b ∈ f y) : i = j := by
  have hpairs := List.pairwise_iff_getElem.1 (List.nodup_flatMap.1 h).2
  obtain ⟨hilt, rfl⟩ := List.getElem?_eq_some_iff.1 hi
  obtain ⟨hjlt, rfl⟩ := List.getElem?_eq_some_iff.1 hj
  rcases Nat.lt_trichotomy i j with hlt | heq | hlt
  · exact absurd hy (hpairs i j hilt hjlt hlt hx)
  · exact heq
  · exact absurd hx (hpairs j i hjlt hilt hlt hy)

namespace Sound

/-- An open place is remembered by one open block. -/
theorem existsUnique_owner {h : Hole} (hs : a.Sound) (hopen : a.code.Open h) :
    ∃! i : Nat, ∃ blk, a.blocks.blocks[i]? = some blk ∧ h ∈ blk.holes := by
  obtain ⟨blk, hblk, rfl⟩ := (hs.open_iff h).1 hopen
  obtain ⟨i, hi⟩ := List.getElem?_of_mem hblk
  refine ⟨i, ⟨blk, hi, blk.pending_mem_holes⟩, ?_⟩
  rintro j ⟨other, hj, hother⟩
  exact eq_of_nodup_flatMap hs.nodup hj hi hother blk.pending_mem_holes

/-- An open block remembers one open place. -/
theorem existsUnique_hole {blk : Block} (hs : a.Sound) (hblk : blk ∈ a.blocks.blocks) :
    ∃! h, h ∈ blk.holes ∧ a.code.Open h := by
  refine ⟨blk.pending, ⟨blk.pending_mem_holes, hs.pending_open hblk⟩, ?_⟩
  rintro h ⟨hh, hopen⟩
  obtain ⟨other, hother, rfl⟩ := (hs.open_iff h).1 hopen
  obtain ⟨i, hi⟩ := List.getElem?_of_mem hblk
  obtain ⟨j, hj⟩ := List.getElem?_of_mem hother
  obtain rfl := eq_of_nodup_flatMap hs.nodup hi hj hh other.pending_mem_holes
  rw [Option.some.inj (hi.symm.trans hj)]

/-- The code is a program when all blocks are closed. -/
theorem program_iff (hs : a.Sound) : (∃ p, a.code.program = .ok p) ↔ a.blocks.blocks = [] := by
  rw [hs.fits.program_iff, List.eq_nil_iff_forall_not_mem]
  constructor
  · intro hclosed blk hblk
    exact hclosed _ (hs.pending_open hblk)
  · intro hempty h hopen
    obtain ⟨blk, hblk, -⟩ := (hs.open_iff h).1 hopen
    exact hempty blk hblk

/-- Only a second else fails. -/
theorem apply_error_iff {e : BlockError} (hs : a.Sound) (hop : op.Valid) :
    a.apply op = some (a', .error e) ↔
      e = .duplicateElse ∧ op = .otherwise ∧ a.HasElse ∧ a' = a := by
  constructor
  · intro h
    obtain ⟨-, hok | ⟨he, hrest⟩⟩ := hs.apply hop h
    · cases hok
    · exact ⟨Except.error.inj he, hrest⟩
  · rintro ⟨rfl, rfl, helse, rfl⟩
    exact apply_otherwise_of_hasElse helse

end Sound

end Assembly

/-- The places of a program lie in it or at its end. -/
theorem Buffer.inRange_of_program {b : Buffer} {p : Program} (h : b.program = .ok p) :
    ∀ ins ∈ p, ∀ slot place, ins.place? slot = some place → 0 ≤ place ∧ place ≤ p.size := by
  obtain ⟨rfl, hvalid⟩ := Buffer.program_eq_ok_iff.1 h
  intro ins hins slot place hplace
  obtain ⟨-, hplaces⟩ := Instruction.flaw?_eq_none_iff.1 (hvalid ins hins)
  exact Instruction.inRange_iff.1 (hplaces slot place hplace)

end Tortoise
