import Tortoise.Proofs.Program.Ownership

/-!
# Emitted code is written once

Blocks remember instructions by their index only, and nothing keeps a block from being closed twice,
or after a block around it. A `Draft` is code with every block that was ever opened in it, so that
edits can come in any order. Whatever they are, and whether they succeed or not, they append
instructions and fill in open places: an instruction that has been emitted is never taken back, and
of its fields only an open place changes.
-/

namespace Tortoise

open Instruction (unresolved)

/-- The instruction `new` is `old`, of which an open place may have been filled in. -/
structure Instruction.Settles (old new : Instruction) : Prop where
  command : new.command = old.command
  name : new.name = old.name
  expr : new.expr = old.expr
  onTrue : new.onTrue = old.onTrue
  action : new.action = old.action
  target : new.target ≠ old.target → old.command = .jump ∧ old.target = unresolved
  onFalse : new.onFalse ≠ old.onFalse → old.command = .branch ∧ old.onFalse = unresolved

namespace Instruction.Settles

variable {old mid new : Instruction}

theorem refl (ins : Instruction) : ins.Settles ins :=
  ⟨rfl, rfl, rfl, rfl, rfl, fun h => absurd rfl h, fun h => absurd rfl h⟩

theorem trans (h : old.Settles mid) (h' : mid.Settles new) : old.Settles new where
  command := h'.command.trans h.command
  name := h'.name.trans h.name
  expr := h'.expr.trans h.expr
  onTrue := h'.onTrue.trans h.onTrue
  action := h'.action.trans h.action
  target hne := by
    by_cases hmid : mid.target = old.target
    · have hopen := h'.target (hmid ▸ hne)
      rwa [h.command, hmid] at hopen
    · exact h.target hmid
  onFalse hne := by
    by_cases hmid : mid.onFalse = old.onFalse
    · have hopen := h'.onFalse (hmid ▸ hne)
      rwa [h.command, hmid] at hopen
    · exact h.onFalse hmid

/-- An open place may be filled in, but for the true place of a branch. -/
theorem fill {slot : Slot} (h : old.place? slot = some unresolved) (hslot : slot ≠ .onTrue)
    (place : Int) : old.Settles (old.fill place slot) := by
  cases slot with
  | target =>
      refine ⟨rfl, rfl, rfl, rfl, rfl, fun _ => ?_, fun hne => absurd rfl hne⟩
      cases hcommand : old.command <;> simp_all [place?]
  | onTrue => exact absurd rfl hslot
  | onFalse =>
      refine ⟨rfl, rfl, rfl, rfl, rfl, fun hne => absurd rfl hne, fun _ => ?_⟩
      cases hcommand : old.command <;> simp_all [place?]

end Instruction.Settles

namespace Buffer

variable {a b c : Buffer} {h : Hole} {i : Nat} {place : Int}

structure Extends (a b : Buffer) : Prop where
  size_le : a.size ≤ b.size
  kept : ∀ (i : Nat) (ins : Instruction), a.code[i]? = some ins →
    ∃ ins', b.code[i]? = some ins' ∧ ins.Settles ins'

namespace Extends

theorem refl (b : Buffer) : b.Extends b :=
  ⟨Nat.le_refl _, fun _ ins hins => ⟨ins, hins, .refl ins⟩⟩

theorem trans (hab : a.Extends b) (hbc : b.Extends c) : a.Extends c := by
  refine ⟨Nat.le_trans hab.size_le hbc.size_le, fun i ins hins => ?_⟩
  obtain ⟨ins', hins', hsettles⟩ := hab.kept i ins hins
  obtain ⟨ins'', hins'', hsettles'⟩ := hbc.kept i ins' hins'
  exact ⟨ins'', hins'', hsettles.trans hsettles'⟩

theorem emit (hab : a.Extends b) (ins : Instruction) : a.Extends (b.emit ins) := by
  refine hab.trans ⟨by simp, fun i old hold => ⟨old, ?_, .refl old⟩⟩
  have hlt : i < b.size := (Array.getElem?_eq_some_iff.1 hold).1
  rw [getElem?_emit, if_neg (Nat.ne_of_lt hlt), hold]

theorem fill (hab : a.Extends b) (hopen : b.Open h) (hslot : h.slot ≠ .onTrue) (place : Int) :
    a.Extends (b.fill h place) := by
  refine hab.trans ⟨by simp, fun i ins hins => ?_⟩
  rw [getElem?_fill, hins]
  by_cases hi : h.index = i
  · obtain ⟨found, hfound, hplace⟩ := hopen
    obtain rfl : found = ins := Option.some.inj (hfound.symm.trans (hi ▸ hins))
    rw [if_pos hi]
    exact ⟨_, rfl, .fill hplace hslot place⟩
  · rw [if_neg hi]
    exact ⟨ins, rfl, .refl ins⟩

end Extends

structure Patches (b : Buffer) (h : Hole) (place : Int) (result : Except PatchError Buffer) :
    Prop where
  ok : b.Open h → result = .ok (b.fill h place)
  error : ¬ b.Open h → ∃ e, result = .error e

theorem patches_patchJump (b : Buffer) (i : Nat) (place : Int) :
    b.Patches ⟨i, .target⟩ place (b.patchJump i place) := by
  refine ⟨fun hopen => patchJump_of_open hopen place, fun hclosed => ?_⟩
  unfold patchJump
  cases hins : b.code[i]? with
  | none => exact ⟨.noInstruction i, rfl⟩
  | some ins =>
      by_cases hcommand : ins.command = .jump
      · have hplace : ins.target ≠ unresolved := fun hplace =>
          hclosed ⟨ins, hins, by simp [Instruction.place?, hcommand, hplace]⟩
        exact ⟨.jumpResolved i ins.target, by simp [hcommand, hplace]⟩
      · exact ⟨.notAJump i ins.command, by simp [hcommand]⟩

theorem patches_patchBranch (b : Buffer) (i : Nat) (place : Int) :
    b.Patches ⟨i, .onFalse⟩ place (b.patchBranch i place) := by
  refine ⟨fun hopen => patchBranch_of_open hopen place, fun hclosed => ?_⟩
  unfold patchBranch
  cases hins : b.code[i]? with
  | none => exact ⟨.noInstruction i, rfl⟩
  | some ins =>
      by_cases hcommand : ins.command = .branch
      · have hplace : ins.onFalse ≠ unresolved := fun hplace =>
          hclosed ⟨ins, hins, by simp [Instruction.place?, hcommand, hplace]⟩
        exact ⟨.branchResolved i ins.onFalse, by simp [hcommand, hplace]⟩
      · exact ⟨.notABranch i ins.command, by simp [hcommand]⟩

namespace Extends

variable {result : Except PatchError Buffer}

theorem patch (hab : a.Extends b) (hpatches : b.Patches h place result)
    (hslot : h.slot ≠ .onTrue) (hresult : result = .ok c) : a.Extends c := by
  by_cases hopen : b.Open h
  · obtain rfl : b.fill h place = c := Except.ok.inj ((hpatches.ok hopen).symm.trans hresult)
    exact hab.fill hopen hslot place
  · obtain ⟨e, herror⟩ := hpatches.error hopen
    rw [herror] at hresult
    cases hresult

/-- Whether a patch fails or not, the code is extended. -/
theorem afterPatch (hab : a.Extends b) (hpatches : b.Patches h place result)
    (hslot : h.slot ≠ .onTrue) : a.Extends (b.afterPatch result).1 := by
  cases result with
  | error e => exact hab
  | ok c => exact hab.patch hpatches hslot rfl

end Extends

theorem extends_elseArm (b : Buffer) (branch : Nat) (elseJump : Option Nat) :
    b.Extends (b.elseArm branch elseJump).1.1 := by
  cases elseJump with
  | some jump => exact .refl b
  | none => exact ((Extends.refl b).emit _).afterPatch (patches_patchBranch _ branch _) nofun

theorem extends_close (b : Buffer) (blk : Block) : b.Extends (blk.close b).1 := by
  have hrefl := Extends.refl b
  cases blk with
  | ifThen branch elseJump =>
      cases elseJump with
      | none => exact hrefl.afterPatch (patches_patchBranch b branch _) nofun
      | some jump => exact hrefl.afterPatch (patches_patchJump b jump _) nofun
  | loop negated branch =>
      exact (hrefl.emit _).afterPatch (patches_patchBranch _ branch _) nofun
  | repeatLoop counter branch =>
      have hjump := (hrefl.emit (.assign counter (.binary .sub (.var counter) (.literal 1)))).emit
        (.jump branch)
      simp only [Block.close]
      split
      next patched hpatch =>
        exact (hjump.patch (patches_patchBranch _ branch _) nofun hpatch).emit (.unset counter)
      next => exact hjump

end Buffer

/-- Code under construction with all blocks that have been opened in it, closed ones included. -/
structure Draft where
  code : Buffer := {}
  blocks : List Block := []
deriving DecidableEq

inductive Edit where
  | emit (ins : Instruction)
  | patchJump (index : Nat) (place : Int)
  | patchBranch (index : Nat) (place : Int)
  | openIf (cond : Expr)
  | openWhile (cond : Expr)
  | openUntil (cond : Expr)
  | openRepeat (count : Expr) (depth : Int)
  | otherwise (block : Nat)
  | close (block : Nat)
deriving DecidableEq

def Edit.patch? : Edit → Option (Hole × Int)
  | patchJump index place => some (⟨index, .target⟩, place)
  | patchBranch index place => some (⟨index, .onFalse⟩, place)
  | _ => none

namespace Draft

variable {d d' : Draft} {edit : Edit} {outcome : Except BlockError Unit}

def enter (d : Draft) (opening : Buffer × Block) : Draft := ⟨opening.1, d.blocks ++ [opening.2]⟩

def after (d : Draft) (result : Buffer.Outcome) : Draft × Except BlockError Unit :=
  (⟨result.1, d.blocks⟩, result.2)

/-- The draft after an edit, and whether the edit succeeded. An else needs an if block, and an end
needs a block; both may come at any time and any number of times. -/
def apply (d : Draft) : Edit → Option (Draft × Except BlockError Unit)
  | .emit ins => some (⟨d.code.emit ins, d.blocks⟩, .ok ())
  | .patchJump index place => some (d.after (d.code.afterPatch (d.code.patchJump index place)))
  | .patchBranch index place => some (d.after (d.code.afterPatch (d.code.patchBranch index place)))
  | .openIf cond => some (d.enter (d.code.openIf cond), .ok ())
  | .openWhile cond => some (d.enter (d.code.openWhile cond), .ok ())
  | .openUntil cond => some (d.enter (d.code.openUntil cond), .ok ())
  | .openRepeat count depth => some (d.enter (d.code.openRepeat count depth), .ok ())
  | .otherwise block =>
    match d.blocks[block]? with
    | some (.ifThen branch elseJump) =>
      let ((code, outcome), elseJump) := d.code.elseArm branch elseJump
      some (⟨code, d.blocks.set block (.ifThen branch elseJump)⟩, outcome)
    | _ => none
  | .close block => d.blocks[block]?.map fun blk => d.after (blk.close d.code)

def run (d : Draft) (edits : List Edit) : Option Draft :=
  edits.foldlM (fun d edit => (d.apply edit).map Prod.fst) d

/-- One edit extends the code. -/
theorem extends_apply (h : d.apply edit = some (d', outcome)) : d.code.Extends d'.code := by
  have hrefl := Buffer.Extends.refl d.code
  cases edit with
  | emit ins =>
      obtain ⟨rfl, -⟩ := Prod.mk.inj (Option.some.inj h)
      exact hrefl.emit ins
  | patchJump index place =>
      obtain ⟨rfl, -⟩ := Prod.mk.inj (Option.some.inj h)
      exact hrefl.afterPatch (Buffer.patches_patchJump d.code index place) nofun
  | patchBranch index place =>
      obtain ⟨rfl, -⟩ := Prod.mk.inj (Option.some.inj h)
      exact hrefl.afterPatch (Buffer.patches_patchBranch d.code index place) nofun
  | openIf cond | openWhile cond | openUntil cond =>
      obtain ⟨rfl, -⟩ := Prod.mk.inj (Option.some.inj h)
      exact hrefl.emit _
  | openRepeat count depth =>
      obtain ⟨rfl, -⟩ := Prod.mk.inj (Option.some.inj h)
      exact (hrefl.emit _).emit _
  | otherwise block =>
      simp only [apply] at h
      split at h
      next branch elseJump _ =>
        obtain ⟨rfl, -⟩ := Prod.mk.inj (Option.some.inj h)
        exact Buffer.extends_elseArm d.code branch elseJump
      next => cases h
  | close block =>
      obtain ⟨blk, -, hblk⟩ := Option.map_eq_some_iff.1 h
      obtain ⟨rfl, -⟩ := Prod.mk.inj hblk
      exact Buffer.extends_close d.code blk

/-- All edits together extend the code. -/
theorem extends_run {edits : List Edit} (h : d.run edits = some d') :
    d.code.Extends d'.code := by
  induction edits generalizing d with
  | nil =>
      obtain rfl := Option.some.inj h
      exact .refl d.code
  | cons edit edits ih =>
      rw [run, List.foldlM_cons, Option.bind_eq_bind, Option.bind_eq_some_iff] at h
      obtain ⟨next, hnext, hrest⟩ := h
      obtain ⟨⟨_, outcome⟩, happly, rfl⟩ := Option.map_eq_some_iff.1 hnext
      exact (extends_apply happly).trans (ih hrest)

def fill (d : Draft) (h : Hole) (place : Int) : Draft := ⟨d.code.fill h place, d.blocks⟩

theorem after_afterPatch {h : Hole} {place : Int} {result : Except PatchError Buffer}
    (hpatches : d.code.Patches h place result) :
    (d.code.Open h → d.after (d.code.afterPatch result) = (d.fill h place, .ok ())) ∧
      (¬ d.code.Open h → ∃ e, d.after (d.code.afterPatch result) = (d, .error e)) := by
  refine ⟨fun hopen => ?_, fun hclosed => ?_⟩
  · rw [hpatches.ok hopen]
    rfl
  · obtain ⟨e, herror⟩ := hpatches.error hclosed
    exact ⟨.patch e, by rw [herror]; rfl⟩

theorem apply_patch {h : Hole} {place : Int} (hpatch : edit.patch? = some (h, place)) :
    (d.code.Open h → d.apply edit = some (d.fill h place, .ok ())) ∧
      (¬ d.code.Open h → ∃ e, d.apply edit = some (d, .error e)) := by
  cases edit with
  | patchJump index place =>
      obtain ⟨rfl, rfl⟩ := Prod.mk.inj (Option.some.inj hpatch)
      simpa [apply] using after_afterPatch (Buffer.patches_patchJump d.code index place)
  | patchBranch index place =>
      obtain ⟨rfl, rfl⟩ := Prod.mk.inj (Option.some.inj hpatch)
      simpa [apply] using after_afterPatch (Buffer.patches_patchBranch d.code index place)
  | _ => cases hpatch

/-- Edits extend the code, in whatever order they come and whether they fail or not: no instruction
is lost, and no field of one changes but an open place. A patch of an open place fills in this
place and nothing else, and any other patch fails and changes nothing. -/
theorem emitted_code_is_written_once {edits : List Edit} (h : d.run edits = some d') :
    d.code.Extends d'.code ∧
      ∀ (patch : Edit) (hole : Hole) (place : Int), patch.patch? = some (hole, place) →
        (d'.code.Open hole → d'.apply patch = some (d'.fill hole place, .ok ())) ∧
        (¬ d'.code.Open hole → ∃ e, d'.apply patch = some (d', .error e)) :=
  ⟨extends_run h, fun _ _ _ => apply_patch⟩

/-- The block is closed twice. Then it gets an else, which emits a jump but finds the branch filled
in, and the last end leads this jump on. -/
theorem closed_block_keeps_branch :
    let opened : Draft := ⟨⟨#[.branch (.var "X") 1 unresolved]⟩, [.ifThen 0 none]⟩
    let closed : Draft :=
      ⟨⟨#[.branch (.var "X") 1 1, .jump 2]⟩, [.ifThen 0 (some 1)]⟩
    ({} : Draft).run [.openIf (.var "X")] = some opened ∧
      opened.run [.close 0, .close 0, .otherwise 0, .close 0] = some closed ∧
      opened.code.Extends closed.code ∧
      ∃ e, closed.apply (.patchBranch 0 5) = some (closed, .error e) := by
  intro opened closed
  have hrun : opened.run [.close 0, .close 0, .otherwise 0, .close 0] = some closed := by decide
  obtain ⟨hextends, hpatch⟩ := emitted_code_is_written_once hrun
  refine ⟨by decide, hrun, hextends, (hpatch (.patchBranch 0 5) _ _ rfl).2 ?_⟩
  rintro ⟨ins, hins, hplace⟩
  obtain rfl := Option.some.inj hins
  cases hplace

end Draft

end Tortoise
