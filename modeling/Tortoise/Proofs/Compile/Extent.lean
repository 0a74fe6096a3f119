import Tortoise.Proofs.Compile.Program
import Tortoise.Proofs.Machine.Env
import Tortoise.Proofs.Program.Codec

/-!
# The extent of compiled code

A tree that is read from a text is no deeper than the text is long, and its names and operators are
pieces of the text. Compiled code adds at most one operator to such a tree.
-/

namespace Tortoise

namespace Text

theorem size_cons (r : Rune) (t : Text) : size (r :: t) = r.size + size t := rfl

theorem size_append (s t : Text) : size (s ++ t) = size s + size t := by
  induction s with
  | nil => exact (Nat.zero_add _).symm
  | cons r s ih => rw [List.cons_append, size_cons, size_cons, ih, Nat.add_assoc]

theorem size_pos_of_ne_nil {t : Text} (h : t ≠ []) : 0 < t.size := by
  cases t with
  | nil => exact absurd rfl h
  | cons r t =>
      have hr : 0 < r.size := by
        cases r with
        | char c => exact c.utf8Size_pos
        | stray b => exact Nat.zero_lt_one
      rw [size_cons]
      omega

theorem size_le (t : Text) : t.size ≤ 4 * t.length := by
  induction t with
  | nil => exact Nat.le_refl 0
  | cons r t ih =>
      have hr : r.size ≤ 4 := by
        cases r with
        | char c => exact c.utf8Size_le_four
        | stray b => exact (by decide : 1 ≤ 4)
      rw [size_cons, List.length_cons]
      omega

theorem isWellFormed_of_isIdentifier {name : Text} (h : name.isIdentifier = true) :
    name.isWellFormed = true := by
  refine List.all_eq_true.2 fun r hr => ?_
  have hword := Expr.isWord_of_mem_identifier h r hr
  cases r with
  | char c => rfl
  | stray b => cases hword

end Text

theorem Prefix.proper_spelling {op : Prefix} (h : op.isKnown = true) : op.spelling.Proper := by
  cases op with
  | unknown => cases h
  | _ => decide

theorem Infix.proper_spelling {op : Infix} (h : op.isKnown = true) : op.spelling.Proper := by
  cases op with
  | unknown => cases h
  | _ => decide

theorem Prefix.size_spelling_pos {op : Prefix} (h : op.isKnown = true) : 0 < op.spelling.size := by
  cases op with
  | unknown => cases h
  | _ => decide

theorem Infix.size_spelling_pos {op : Infix} (h : op.isKnown = true) : 0 < op.spelling.size := by
  cases op with
  | unknown => cases h
  | _ => decide

namespace Expr

theorem Plain.isComplete {e : Expr} (h : e.Plain) : e.isComplete = true := by
  induction e with
  | absent | null | foreign => exact h.elim
  | literal => rfl
  | var name => simp [Expr.isComplete, Text.ne_nil_of_isIdentifier h]
  | unary op e ih => simp [Expr.isComplete, h.1, ih h.2]
  | binary op l r ihl ihr => simp [Expr.isComplete, h.1, ihl h.2.1, ihr h.2.2]

theorem Derives.depth_le {level : Level} {source : Text} {e : Expr} (h : Derives level source e) :
    e.depth ≤ source.size := by
  induction h with
  | operand _ ih => exact ih
  | chain hop _ _ _ ihl ihr =>
      have hpos := Infix.size_spelling_pos (isKnown_of_mem_operators hop)
      simp only [Text.size_append, Expr.depth]
      omega
  | sign hop _ _ ih =>
      have hpos := Prefix.size_spelling_pos hop
      simp only [Text.size_append, Expr.depth]
      omega
  | number _ _ hdigits =>
      have hpos := Text.size_pos_of_ne_nil (tight_numeral hdigits).ne_nil
      simp only [Text.size_append, Expr.depth]
      omega
  | identifier _ _ hname =>
      have hpos := Text.size_pos_of_ne_nil (tight_identifier hname).ne_nil
      simp only [Text.size_append, Expr.depth]
      omega
  | group _ _ _ ih =>
      simp only [Text.size_append, List.cons_append, Text.size_cons]
      omega

theorem Derives.texts {level : Level} {source : Text} {e : Expr} (h : Derives level source e) :
    ∀ t ∈ e.texts, t.isWellFormed = true ∧ t.size ≤ source.size := by
  induction h with
  | operand _ ih => exact ih
  | chain hop _ _ _ ihl ihr =>
      simp only [Expr.texts, List.forall_mem_cons, List.forall_mem_append, Text.size_append]
      refine ⟨⟨(Infix.proper_spelling (isKnown_of_mem_operators hop)).wellFormed, by omega⟩,
        fun t ht => ⟨(ihl t ht).1, ?_⟩, fun t ht => ⟨(ihr t ht).1, ?_⟩⟩
      · have hsize := (ihl t ht).2
        omega
      · have hsize := (ihr t ht).2
        omega
  | sign hop _ _ ih =>
      simp only [Expr.texts, List.forall_mem_cons, Text.size_append]
      refine ⟨⟨(Prefix.proper_spelling hop).wellFormed, by omega⟩, fun t ht => ⟨(ih t ht).1, ?_⟩⟩
      have hsize := (ih t ht).2
      omega
  | number => simp [Expr.texts]
  | identifier _ _ hname =>
      simp only [Expr.texts, List.mem_singleton, forall_eq, Text.size_append]
      exact ⟨Text.isWellFormed_of_isIdentifier hname, by omega⟩
  | group _ _ _ ih =>
      simp only [Text.size_append, List.cons_append, Text.size_cons]
      refine fun t ht => ⟨(ih t ht).1, ?_⟩
      have hsize := (ih t ht).2
      omega

structure Modest (levels : Nat) (e : Expr) : Prop where
  complete : e.isComplete = true
  depth_le : e.depth ≤ levels
  texts : ∀ t ∈ e.texts, t.Proper

theorem Modest.mono {levels more : Nat} {e : Expr} (h : e.Modest levels) (hle : levels ≤ more) :
    e.Modest more :=
  ⟨h.complete, Nat.le_trans h.depth_le hle, h.texts⟩

theorem Modest.depth_pos {levels : Nat} {e : Expr} (h : e.Modest levels) : 0 < levels := by
  have hcomplete := h.complete
  have hdepth := h.depth_le
  cases e with
  | absent | foreign => cases hcomplete
  | _ =>
      simp only [Expr.depth] at hdepth
      omega

theorem modest_unary {op : Prefix} (hop : op.isKnown = true) {levels : Nat} {e : Expr}
    (h : e.Modest levels) : (Expr.unary op e).Modest (levels + 1) := by
  refine ⟨by simp [Expr.isComplete, hop, h.complete], Nat.succ_le_succ h.depth_le, ?_⟩
  exact List.forall_mem_cons.2 ⟨Prefix.proper_spelling hop, h.texts⟩

end Expr

section Emission

variable {bound : Nat} {tokens : List Token}

theorem Token.Reads.modest (hbound : bound < 2 ^ 63) {t : Token} {e : Expr}
    (h : t.Reads bound e) : e.Modest bound := by
  obtain ⟨hsize, hderives⟩ := Expr.parse_eq_ok_iff.1 h.2
  refine ⟨hderives.plain.isComplete, Nat.le_trans hderives.depth_le hsize, fun t ht => ?_⟩
  obtain ⟨hwell, hlt⟩ := hderives.texts t ht
  exact ⟨hwell, by omega⟩

theorem Token.Reads.modest_succ (hbound : bound < 2 ^ 63) {t : Token} {e : Expr}
    (h : t.Reads bound e) : e.Modest (bound + 1) :=
  (h.modest hbound).mono (Nat.le_succ bound)

/-- The instructions that compiling emits: their expressions are read from the source, but for one
more operator. -/
inductive Instruction.Emitted (bound : Nat) : Instruction → Prop
  | assign {name : Text} {e : Expr} (hname : name.Proper) (he : e.Modest (bound + 1)) :
      Emitted bound (.assign name e)
  | jump {target : Int} : Emitted bound (.jump target)
  | branch {e : Expr} {onTrue onFalse : Int} (he : e.Modest (bound + 1)) :
      Emitted bound (.branch e onTrue onFalse)
  | act {action : Action} {e : Expr} (he : e.Modest (bound + 1)) : Emitted bound (.act action e)
  | unset {name : Text} (hname : name.Proper) : Emitted bound (.unset name)

theorem modest_step {op : Infix} (hop : op.isKnown = true) {name : Text} {n : Int64}
    (hname : name.isEmpty = false) (htext : name.Proper) (hbound : 0 < bound) :
    (Expr.binary op (.var name) (.literal n)).Modest (bound + 1) := by
  refine ⟨by simp [Expr.isComplete, hop, hname], ?_, ?_⟩
  · change max 1 1 + 1 ≤ bound + 1
    omega
  · refine List.forall_mem_cons.2 ⟨Infix.proper_spelling hop, ?_⟩
    simpa [Expr.texts] using htext

theorem Simple.Derives.emitted (hbound : bound < 2 ^ 63) {statement : Simple}
    (h : statement.Derives bound tokens) : statement.instruction.Emitted bound := by
  have hliteral (n : Int64) : (Expr.literal n).Modest (bound + 1) :=
    ⟨rfl, Nat.le_add_left 1 bound, by simp [Expr.texts]⟩
  have hname {t : Token} {name : Text} (h : t.Reads bound (.var name)) : name.Proper :=
    (h.modest hbound).texts name (by simp [Expr.texts])
  have hstep {t : Token} {name : Text} {op : Infix} (hop : op.isKnown = true)
      (h : t.Reads bound (.var name)) :
      (Expr.binary op (.var name) (.literal 1)).Modest (bound + 1) :=
    modest_step hop (Text.ne_nil_of_isIdentifier h.plain) (hname h) (h.modest hbound).depth_pos
  cases h with
  | assign hv _ he => exact .assign (hname hv) (he.modest_succ hbound)
  | equation he =>
      obtain ⟨hcomplete, hdepth, htexts⟩ := he.modest hbound
      simp only [Expr.depth] at hdepth
      simp only [Expr.texts, List.forall_mem_cons, List.forall_mem_append] at htexts
      refine .assign htexts.2.1.1 ⟨(Bool.and_eq_true_iff.1 hcomplete).2, ?_, htexts.2.2⟩
      omega
  | namedColor => exact .act (hliteral _)
  | color _ _ _ he => exact .act (he.modest_succ hbound)
  | thickness _ _ _ he => exact .act (he.modest_succ hbound)
  | startStroke => exact .act (hliteral _)
  | stopStroke => exact .act (hliteral _)
  | move _ he => exact .act (he.modest_succ hbound)
  | moveForward _ _ he => exact .act (he.modest_succ hbound)
  | moveBackward _ _ he => exact .act (Expr.modest_unary rfl (he.modest hbound))
  | turnLeft => exact .act (hliteral _)
  | turnRight => exact .act (hliteral _)
  | turn _ he => exact .act (he.modest_succ hbound)
  | increment _ hv => exact .assign (hname hv) (hstep rfl hv)
  | decrement _ hv => exact .assign (hname hv) (hstep rfl hv)

theorem Opening.proper_counter {depth : Nat} (h : depth + 1 < 2 ^ 63) :
    (counter depth).Proper := by
  have hdigits : (Nat.toDigits 10 (depth + 1)).length ≤ 19 :=
    (Nat.length_toDigits_le_iff (by decide) (by decide)).2 (by omega)
  have hsize := Text.size_le (Opening.counter depth)
  rw [Opening.counter_eq] at hsize ⊢
  constructor
  · simp [Text.isWellFormed, Text.ofString, Rune.isChar]
  · simp only [List.length_append, List.length_map] at hsize
    have hword : (Text.ofString "#repeat").length = 7 := rfl
    omega

theorem Opening.Derives.emitted (hbound : bound < 2 ^ 63) {opening : Opening}
    (h : opening.Derives bound tokens) {b depth : Nat} (hdepth : depth + 1 < 2 ^ 63)
    {inner : List Instruction} (hinner : ∀ ins ∈ inner, ins.Emitted bound) :
    ∀ ins ∈ opening.wrap b depth inner, ins.Emitted bound := by
  cases h with
  | ifThen _ he => exact List.forall_mem_cons.2 ⟨.branch (he.modest_succ hbound), hinner⟩
  | whileLoop _ he =>
      simp only [Opening.wrap, List.forall_mem_cons, List.forall_mem_append]
      exact ⟨.branch (he.modest_succ hbound), hinner, .jump, by simp⟩
  | untilLoop _ he =>
      simp only [Opening.wrap, List.forall_mem_cons, List.forall_mem_append]
      exact ⟨.branch (Expr.modest_unary rfl (he.modest hbound)), hinner, .jump, by simp⟩
  | repeatLoop _ he _ =>
      have hcounter := Opening.proper_counter hdepth
      have hstep {op : Infix} (hop : op.isKnown = true) (n : Int64) :=
        modest_step (n := n) hop (Opening.isEmpty_counter depth) hcounter
          (he.modest hbound).depth_pos
      simp only [Opening.wrap, List.forall_mem_cons, List.forall_mem_append]
      exact ⟨.assign hcounter (he.modest_succ hbound), .branch (hstep rfl 0), hinner,
        .assign hcounter (hstep rfl 1), .jump, .unset hcounter, by simp⟩

theorem Body.Derives.emitted (hbound : bound < 2 ^ 63) {body : Body}
    (h : body.Derives bound tokens) {b depth : Nat} (hsize : depth + body.size < 2 ^ 63) :
    ∀ ins ∈ body.code b depth, ins.Emitted bound := by
  induction h generalizing b depth with
  | done => simp [Body.code]
  | simple hstatement _ ih =>
      simp only [Body.size] at hsize
      exact List.forall_mem_cons.2 ⟨hstatement.emitted hbound, ih (by omega)⟩
  | @block _ _ _ _ opening inner next hopening _ _ _ ihi ihn =>
      have hdeepen : opening.deepen depth + inner.size < 2 ^ 63 ∧ depth + 1 < 2 ^ 63 ∧
          depth + next.size < 2 ^ 63 := by
        cases opening <;>
          simp only [Body.size, Opening.lead, Opening.trail, Opening.deepen] at * <;> omega
      obtain ⟨hin, hdepth, hnext⟩ := hdeepen
      exact List.forall_mem_append.2 ⟨hopening.emitted hbound hdepth (ihi hin), ihn hnext⟩
  | @ifElse _ _ _ _ _ _ cond yes no next hopening _ _ _ _ _ ihy ihn ihx =>
      simp only [Body.size] at hsize
      cases hopening with
      | ifThen _ he =>
          simp only [Body.code, List.forall_mem_cons, List.forall_mem_append]
          exact ⟨.branch (he.modest_succ hbound), ihy (by omega), .jump,
            ihn (by omega), ihx (by omega)⟩

theorem Instruction.proper_spelling {ins : Instruction} {size : Nat} (h : ins.flaw? size = none) :
    ins.command.spelling.Proper := by
  cases hcommand : ins.command with
  | unknown spelling foreign => simp [Instruction.flaw?, hcommand] at h
  | _ => decide

/-- What is emitted, with its places in the program, is sound. -/
theorem Instruction.Emitted.sound {ins : Instruction} (h : ins.Emitted bound) {size : Nat}
    (hsize : size < 2 ^ 63) (hflaw : ins.flaw? size = none) : ins.Sound (bound + 1) := by
  have hfits {n : Int} (h : Instruction.inRange size n = true) : Binary.fits n = true := by
    simp only [Instruction.inRange, Bool.and_eq_true, decide_eq_true_eq] at h
    exact Binary.fits_iff.2 (by omega)
  have hexpr : ins.expr = .absent ∨ ins.expr.Modest (bound + 1) := by
    cases h with
    | assign _ he | branch he | act he => exact .inr he
    | jump | unset => exact .inl rfl
  have hname : ins.name.Proper := by
    cases h with
    | assign hname _ | unset hname => exact hname
    | jump | branch _ | act _ => exact Text.proper_nil
  have hplaces : Binary.fits ins.target = true ∧ Binary.fits ins.onTrue = true ∧
      Binary.fits ins.onFalse = true := by
    cases h with
    | assign | act | unset => exact ⟨rfl, rfl, rfl⟩
    | @jump target =>
        cases htarget : inRange size target with
        | true => exact ⟨hfits htarget, rfl, rfl⟩
        | false => simp [flaw?, Instruction.jump, htarget] at hflaw
    | @branch e onTrue onFalse he =>
        cases hplaces : inRange size onTrue && inRange size onFalse with
        | true =>
            obtain ⟨htrue, hfalse⟩ := Bool.and_eq_true_iff.1 hplaces
            exact ⟨rfl, hfits htrue, hfits hfalse⟩
        | false => cases he : e.isAbsent <;> simp [flaw?, Instruction.branch, he, hplaces] at hflaw
  have hcomplete := hexpr.imp_right Expr.Modest.complete
  refine ⟨hcomplete, ?_, ?_, Expr.ofExpr_eq_node hcomplete, hplaces.1, hplaces.2.1,
    hplaces.2.2⟩
  · obtain heq | hmodest := hexpr
    · simp [heq, Expr.depth]
    · exact hmodest.depth_le
  · refine List.forall_mem_cons.2 ⟨proper_spelling hflaw, List.forall_mem_cons.2 ⟨hname, ?_⟩⟩
    obtain heq | hmodest := hexpr
    · simp [heq, Expr.texts]
    · exact hmodest.texts

/-- Compiled code is valid and sound. -/
theorem sound_of_compile (hbound : bound < 2 ^ 63) {source : Text} {p : Program}
    (hsize : p.size < 2 ^ 63) (h : compile bound source = .ok p) :
    p.invalid? = none ∧ ∀ ins ∈ p, ins.Sound (bound + 1) := by
  obtain ⟨tokens, eof, body, -, hbody, rfl⟩ := exists_body_of_compile h
  rw [Body.size_program] at hsize
  refine ⟨hbody.plain.invalid?, fun ins hmem => ?_⟩
  have hmem : ins ∈ body.code 0 0 := by simpa [Body.program] using hmem
  have hemitted : ins.Emitted bound := hbody.emitted hbound (by omega) ins hmem
  exact hemitted.sound hsize (hbody.plain.flaw? (by omega) ins hmem)

end Emission

end Tortoise
