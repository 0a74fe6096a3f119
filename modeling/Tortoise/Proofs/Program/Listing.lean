import Tortoise.Proofs.Expr.Written
import Tortoise.Proofs.Program.Ownership
import Tortoise.Proofs.Text.Lines

/-!
# What a listing determines

Each line of a listing starts with the number of its instruction and goes on with a verb and
operands, blanks between them. Where names and expressions are legible, no operand has a blank, so
a line can be cut into its parts, and a listing into its lines. What is left open is how an
expression is built that is written in more than one way.
-/

namespace Tortoise

/-- A part of a line ends at the next blank. -/
theorem Text.cut_at_space {t u rest rest' : Text} (ht : ∀ r ∈ t, r.isBlank = false)
    (hu : ∀ r ∈ u, r.isBlank = false) (h : t ++ .char ' ' :: rest = u ++ .char ' ' :: rest') :
    t = u ∧ rest = rest' := by
  have hstop (rest : Text) : ∀ r ∈ (Rune.char ' ' :: rest).head?, (!r.isBlank) = false := by
    rintro r ⟨⟩
    decide
  obtain ⟨hcut, hrest⟩ := append_inj_of_class (p := fun r => !r.isBlank)
    (fun r hr => by rw [ht r hr]; rfl) (fun r hr => by rw [hu r hr]; rfl) (hstop _) (hstop _) h
  exact ⟨hcut, (List.cons.inj hrest).2⟩

inductive Verb where
  | assign
  | jump
  | branch
  | act (action : Action)
  | unset
deriving DecidableEq

namespace Verb

def text : Verb → Text
  | assign => "assign"
  | jump => "jump"
  | branch => "branch"
  | act a => a.name
  | unset => "unset"

def command : Verb → Command
  | assign => .assign
  | jump => .jump
  | branch => .branch
  | act _ => .action
  | unset => .unset

def all : List Verb :=
  [assign, jump, branch, act .color, act .thickness, act .stroke, act .move, act .turn, unset]

theorem mem_all (v : Verb) : v ∈ all := by
  cases v with
  | act a => cases a <;> decide
  | _ => decide

theorem text_inj {v v' : Verb} (h : v.text = v'.text) : v = v' := by
  have hall : ∀ v ∈ all, ∀ v' ∈ all, v.text = v'.text → v = v' := by decide
  exact hall v v.mem_all v' v'.mem_all h

theorem isBlank_of_mem_text (v : Verb) : ∀ r ∈ v.text, r.isBlank = false := by
  have hall : ∀ v ∈ all, ∀ r ∈ v.text, r.isBlank = false := by decide
  exact hall v v.mem_all

end Verb

namespace Instruction

variable {ins ins' : Instruction} {v : Verb} {size size' : Nat}

def verb? (ins : Instruction) : Option Verb :=
  match ins.command with
  | .assign => some .assign
  | .jump => some .jump
  | .branch => some .branch
  | .action => (Action.ofCode? ins.action).map .act
  | .unset => some .unset
  | .unknown _ _ => none

theorem verb?_eq_some_iff : ins.verb? = some v ↔
    ins.command = v.command ∧ ∀ a, v = .act a → Action.ofCode? ins.action = some a := by
  cases hcommand : ins.command <;> cases v <;> simp [verb?, hcommand, Verb.command]

theorem exists_verb (h : ins.flaw? size = none) : ∃ v, ins.verb? = some v := by
  cases hcommand : ins.command with
  | action =>
      cases haction : Action.ofCode? ins.action with
      | none => simp [flaw?, hcommand, haction] at h
      | some a => exact ⟨.act a, by simp [verb?, hcommand, haction]⟩
  | unknown => simp [flaw?, hcommand] at h
  | assign | jump | branch | unset => simp [verb?, hcommand]

def operands (ins : Instruction) : Verb → Text
  | .assign => ins.name ++ .char ' ' :: ins.expr.render
  | .jump => placeText ins.target
  | .branch =>
    ins.expr.render ++
      .char ' ' :: ((placeText ins.onTrue : Text) ++ .char ' ' :: (placeText ins.onFalse : Text))
  | .act _ => ins.expr.render
  | .unset => ins.name

theorem render_eq (h : ins.verb? = some v) :
    ins.render = v.text ++ .char ' ' :: ins.operands v := by
  obtain ⟨hcommand, haction⟩ := verb?_eq_some_iff.1 h
  cases v with
  | act a =>
      simp only [render, hcommand, Verb.command, actionText, haction a rfl, Verb.text, operands]
      simp [Text.ofString]
  | assign | jump | branch | unset =>
      simp only [render, hcommand, Verb.command, Verb.text, operands]
      simp [Text.ofString]

/-- The names and the expression that the instruction uses can be told from its line. -/
def Legible (ins : Instruction) : Prop :=
  match ins.command with
  | .assign => ins.name.IsName ∧ ins.expr.Legible
  | .branch | .action => ins.expr.Legible
  | .unset => ins.name.IsName
  | .jump | .unknown _ _ => True

theorem placeText_of_inRange {place : Int} (h : inRange size place = true) :
    placeText place = Text.ofInt place := by
  have hplace := (inRange_iff.1 h).1
  have hopen : place ≠ unresolved := by
    unfold unresolved
    omega
  rw [placeText, if_neg hopen]

theorem placeText_inj {place place' : Int} (h : inRange size place = true)
    (h' : inRange size' place' = true)
    (htext : Text.ofString (placeText place) = placeText place') : place = place' := by
  have hstop : Text.AtStop [] := nofun
  rw [placeText_of_inRange h, placeText_of_inRange h'] at htext
  exact (Text.ofInt_append_inj hstop hstop (congrArg (· ++ []) htext)).1

theorem isBlank_of_mem_placeText {place : Int} (h : inRange size place = true) :
    ∀ r ∈ Text.ofString (placeText place), r.isBlank = false := by
  rw [placeText_of_inRange h]
  exact fun r => Text.isBlank_of_mem_ofInt

def Fair (ins : Instruction) (size : Nat) : Verb → Prop
  | .assign => ins.name.IsName ∧ ins.expr.Legible
  | .jump => inRange size ins.target = true
  | .branch =>
    ins.expr.Legible ∧ inRange size ins.onTrue = true ∧ inRange size ins.onFalse = true
  | .act _ => ins.expr.Legible
  | .unset => ins.name.IsName

theorem Legible.fair (h : ins.Legible) (hflaw : ins.flaw? size = none)
    (hverb : ins.verb? = some v) : ins.Fair size v := by
  obtain ⟨hcommand, -⟩ := verb?_eq_some_iff.1 hverb
  obtain ⟨-, hplaces⟩ := flaw?_eq_none_iff.1 hflaw
  unfold Legible at h
  cases v with
  | jump => exact hplaces .target _ (by simp [place?, hcommand, Verb.command])
  | branch =>
      rw [hcommand] at h
      exact ⟨h, hplaces .onTrue _ (by simp [place?, hcommand, Verb.command]),
        hplaces .onFalse _ (by simp [place?, hcommand, Verb.command])⟩
  | assign | act | unset =>
      rw [hcommand] at h
      exact h

def SameDeed (ins ins' : Instruction) : Verb → Prop
  | .assign => ins.name = ins'.name ∧ ∀ env, ins.expr.eval env = ins'.expr.eval env
  | .jump => ins.target = ins'.target
  | .branch => (∀ env, ins.expr.eval env = ins'.expr.eval env) ∧ ins.onTrue = ins'.onTrue ∧
      ins.onFalse = ins'.onFalse
  | .act _ => ∀ env, ins.expr.eval env = ins'.expr.eval env
  | .unset => ins.name = ins'.name

theorem sameDeed_of_operands (h : ins.Fair size v) (h' : ins'.Fair size' v)
    (heq : ins.operands v = ins'.operands v) : ins.SameDeed ins' v := by
  cases v with
  | assign =>
      obtain ⟨hname, hexpr⟩ := Text.cut_at_space h.1.isBlank_of_mem h'.1.isBlank_of_mem heq
      exact ⟨hname, h.2.eval_of_render h'.2 hexpr⟩
  | jump => exact placeText_inj h h' heq
  | branch =>
      obtain ⟨hexpr, hplaces⟩ :=
        Text.cut_at_space h.1.isBlank_of_mem_render h'.1.isBlank_of_mem_render heq
      obtain ⟨htrue, hfalse⟩ := Text.cut_at_space (isBlank_of_mem_placeText h.2.1)
        (isBlank_of_mem_placeText h'.2.1) hplaces
      exact ⟨h.1.eval_of_render h'.1 hexpr, placeText_inj h.2.1 h'.2.1 htrue,
        placeText_inj h.2.2 h'.2.2 hfalse⟩
  | act a => exact h.eval_of_render h' heq
  | unset => exact heq

/-- Instructions on the same line do the same. -/
theorem exists_sameDeed (h : ins.Legible) (h' : ins'.Legible) (hflaw : ins.flaw? size = none)
    (hflaw' : ins'.flaw? size' = none) (hrender : ins.render = ins'.render) :
    ∃ v, ins.verb? = some v ∧ ins'.verb? = some v ∧ ins.SameDeed ins' v := by
  obtain ⟨v, hv⟩ := exists_verb hflaw
  obtain ⟨v', hv'⟩ := exists_verb hflaw'
  rw [render_eq hv, render_eq hv'] at hrender
  obtain ⟨htext, hoperands⟩ :=
    Text.cut_at_space v.isBlank_of_mem_text v'.isBlank_of_mem_text hrender
  obtain rfl := Verb.text_inj htext
  exact ⟨v, hv, hv', sameDeed_of_operands (h.fair hflaw hv) (h'.fair hflaw' hv') hoperands⟩

theorem newline_not_mem_render (h : ins.Legible) (hflaw : ins.flaw? size = none) :
    .char '\n' ∉ ins.render := by
  have hsolid {t : Text} (ht : ∀ r ∈ t, r.isBlank = false) : .char '\n' ∉ t := fun hmem =>
    absurd (ht _ hmem) (by decide)
  obtain ⟨v, hv⟩ := exists_verb hflaw
  have hfair := h.fair hflaw hv
  have hoperands : .char '\n' ∉ ins.operands v := by
    cases v with
    | assign =>
        simp [operands, hsolid hfair.1.isBlank_of_mem, hsolid hfair.2.isBlank_of_mem_render]
    | jump => exact hsolid (isBlank_of_mem_placeText hfair)
    | branch =>
        simp [operands, hsolid hfair.1.isBlank_of_mem_render,
          hsolid (isBlank_of_mem_placeText hfair.2.1), hsolid (isBlank_of_mem_placeText hfair.2.2)]
    | act => exact hsolid (Expr.Legible.isBlank_of_mem_render hfair)
    | unset => exact hsolid (Text.IsName.isBlank_of_mem hfair)
  rw [render_eq hv]
  simp [hsolid v.isBlank_of_mem_text, hoperands]

end Instruction

namespace Program

variable {p q : Program}

def gutter (width index : Nat) : Text := Text.padLeft width (Text.ofNat index) ++ "  "

def lines (p : Program) : List Text :=
  let width := (Text.ofNat p.size).length
  (p.toList.zipIdx.map fun (ins, index) => gutter width index ++ ins.render) ++
    [gutter width p.size ++ "halt"]

theorem listing_eq (p : Program) : p.listing = Text.ended '\n' p.lines := by
  have hbreak : Text.ofString "\n" = [.char '\n'] := rfl
  have hnumber (a b : String) : Text.ofString (a ++ b) = Text.ofString a ++ Text.ofString b := by
    simp [Text.ofString]
  simp [listing, lines, Text.ended, listingLine, gutter, hbreak, hnumber, List.flatMap_map]

theorem newline_not_mem_gutter (width index : Nat) : .char '\n' ∉ gutter width index := by
  intro h
  rcases List.mem_append.1 h with h | h
  · exact Text.newline_not_mem_padLeft width index h
  · exact absurd h (by decide)

theorem newline_not_mem_lines (h : ∀ ins ∈ p, ins.Legible)
    (hvalid : ∀ ins ∈ p, ins.flaw? p.size = none) : ∀ line ∈ p.lines, .char '\n' ∉ line := by
  have hnumbered {width index : Nat} {t : Text} (ht : .char '\n' ∉ t) :
      .char '\n' ∉ gutter width index ++ t :=
    fun hmem => (List.mem_append.1 hmem).elim (newline_not_mem_gutter width index) ht
  refine List.forall_mem_append.2 ⟨List.forall_mem_map.2 fun numbered hmem => ?_,
    List.forall_mem_singleton.2 (hnumbered (by decide))⟩
  have hins : numbered.1 ∈ p := Array.mem_toList_iff.1 (List.fst_mem_of_mem_zipIdx hmem)
  exact hnumbered (Instruction.newline_not_mem_render (h _ hins) (hvalid _ hins))

/-- Programs with the same listing have the same lines at the same places. -/
theorem render_of_listing (hp : ∀ ins ∈ p, ins.Legible) (hq : ∀ ins ∈ q, ins.Legible)
    (hvalid : ∀ ins ∈ p, ins.flaw? p.size = none) (hvalid' : ∀ ins ∈ q, ins.flaw? q.size = none)
    (h : p.listing = q.listing) (i : Nat) :
    p[i]?.map Instruction.render = q[i]?.map Instruction.render := by
  have hlines : p.lines = q.lines := by
    have hsplit := congrArg (Text.splitOn '\n') h
    rw [listing_eq, listing_eq, Text.splitOn_ended (newline_not_mem_lines hp hvalid),
      Text.splitOn_ended (newline_not_mem_lines hq hvalid')] at hsplit
    exact List.append_cancel_right hsplit
  have hsize : p.size = q.size := by
    have hlength := congrArg List.length hlines
    simpa [lines] using hlength
  simp only [lines, hsize] at hlines
  have hline := congrArg (·[i]?) (List.append_cancel_right hlines)
  simp only [List.getElem?_map, List.getElem?_zipIdx, Array.getElem?_toList] at hline
  cases hpi : p[i]? <;> cases hqi : q[i]? <;> simp_all

end Program

end Tortoise
