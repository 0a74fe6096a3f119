import Tortoise.Expr.Parse
import Tortoise.Proofs.Text.Blank
import Tortoise.Proofs.Text.Class

/-!
# The grammar of expressions

    logic      := comparison [(and | or) logic]
    comparison := sum [(= | > | <) comparison]
    sum        := product [(+ | -) sum]
    product    := unary [(* | /) product]
    unary      := (- | !) unary | atom
    atom       := digits | identifier | '(' logic ')'

Blanks may stand around every token, and a word operator touches no letter or digit. Each text
derives its tree at a level; a chain of operators of one level groups to the right.
-/

namespace Tortoise.Expr

open Text (Blank Tight)

inductive Level where
  | logic
  | comparison
  | sum
  | product
  | unary
  | atom
deriving DecidableEq

namespace Level

def tighter : Level → Level
  | logic => comparison
  | comparison => sum
  | sum => product
  | product => unary
  | unary => atom
  | atom => atom

def operators : Level → List Infix
  | logic => [.and, .or]
  | comparison => [.equal, .greater, .less]
  | sum => [.add, .sub]
  | product => [.mul, .div]
  | unary => []
  | atom => []

def rank : Level → Nat
  | logic => 1
  | comparison => 2
  | sum => 3
  | product => 4
  | unary => 5
  | atom => 6

theorem rank_of_mem_operators {level : Level} {op : Infix} (h : op ∈ level.operators) :
    op.rank = level.rank := by
  cases level <;> simp [operators] at h <;> rcases h with rfl | rfl | rfl <;> rfl

theorem rank_le_rank_tighter (level : Level) : level.rank ≤ level.tighter.rank := by
  cases level <;> decide

/-- Climbing from any level reaches every tighter one. -/
theorem climb {P : Level → Prop} (hstep : ∀ level, P level.tighter → P level) {low high : Level}
    (hrank : low.rank ≤ high.rank) (h : P high) : P low := by
  have hunary : P .atom → P .unary := hstep .unary
  have hproduct : P .unary → P .product := hstep .product
  have hsum : P .product → P .sum := hstep .sum
  have hcomparison : P .sum → P .comparison := hstep .comparison
  have hlogic : P .comparison → P .logic := hstep .logic
  cases high <;> cases low <;> simp [rank] at hrank <;> simp_all

end Level

def WordBreak (left right : Text) : Prop :=
  (∀ r, left.getLast? = some r → r.isWord = false) ∧
    ∀ r, right.head? = some r → r.isWord = false

/-- `Derives level source e`: the text `source` derives the tree `e` at a level. -/
inductive Derives : Level → Text → Expr → Prop
  | operand {level : Level} {source : Text} {e : Expr} :
      Derives level.tighter source e → Derives level source e
  | chain {level : Level} {op : Infix} {left right : Text} {a b : Expr} :
      op ∈ level.operators → (op = .and ∨ op = .or → WordBreak left right) →
      Derives level.tighter left a → Derives level right b →
      Derives level (left ++ op.spelling ++ right) (.binary op a b)
  | sign {op : Prefix} {before source : Text} {e : Expr} :
      op.isKnown = true → Blank before → Derives .unary source e →
      Derives .unary (before ++ op.spelling ++ source) (.unary op e)
  | number {before digits after : Text} :
      Blank before → Blank after → digits.isNumeral = true →
      digits.numeralValue ≤ 0x7fffffffffffffff →
      Derives .atom (before ++ digits ++ after) (.literal (Int64.ofNat digits.numeralValue))
  | identifier {before name after : Text} :
      Blank before → Blank after → name.isIdentifier = true →
      Derives .atom (before ++ name ++ after) (.var name)
  | group {before inner after : Text} {e : Expr} :
      Blank before → Blank after → Derives .logic inner e →
      Derives .atom (before ++ (.char '(' :: inner ++ [.char ')']) ++ after) e

/-- What stands at a level stands at every looser one. -/
theorem Derives.loosen {low high : Level} {source : Text} {e : Expr} (h : Derives high source e)
    (hrank : low.rank ≤ high.rank) : Derives low source e :=
  Level.climb (P := fun level => Derives level source e) (fun _ => .operand) hrank h

theorem tight_sign {op : Prefix} (h : op.isKnown = true) : Tight op.spelling := by
  cases op with
  | unknown s foreign => simp [Prefix.isKnown] at h
  | _ => exact Text.tight_of_forall (by decide) (by decide)

theorem tight_numeral {digits : Text} (h : digits.isNumeral = true) : Tight digits := by
  simp only [Text.isNumeral, Bool.and_eq_true, Bool.not_eq_true', List.isEmpty_eq_false_iff,
    List.all_eq_true] at h
  exact Text.tight_of_forall h.1 fun r hr => Rune.isBlank_eq_false_of_isAsciiDigit (h.2 r hr)

theorem isWord_of_mem_identifier {name : Text} (h : name.isIdentifier = true) :
    ∀ r ∈ name, r.isWord = true := by
  cases name with
  | nil => simp [Text.isIdentifier] at h
  | cons r rest =>
      simp only [Text.isIdentifier, Bool.and_eq_true, List.all_eq_true] at h
      intro x hx
      rcases List.mem_cons.1 hx with rfl | hx
      · exact Rune.isWord_of_isUpper h.1
      · exact h.2 x hx

theorem tight_identifier {name : Text} (h : name.isIdentifier = true) : Tight name := by
  apply Text.tight_of_forall
  · rintro rfl
    simp [Text.isIdentifier] at h
  · exact fun r hr => Rune.isBlank_eq_false_of_isWord (isWord_of_mem_identifier h r hr)

theorem tight_group (inner : Text) : Tight (.char '(' :: inner ++ [.char ')']) :=
  ⟨⟨.char '(', inner ++ [.char ')'], rfl, by decide⟩,
    ⟨.char '(' :: inner, .char ')', rfl, by decide⟩⟩

/-- Only the runes next to the seam matter. -/
theorem WordBreak.congr {left right left' right' : Text} (h : WordBreak left right)
    (hl : left'.getLast? = left.getLast?) (hr : right'.head? = right.head?) :
    WordBreak left' right' := by
  rw [WordBreak, hl, hr]
  exact h

theorem getLast?_pad {before core after : Text} (b : Text) (hcore : core ≠ []) :
    (b ++ core ++ after).getLast? = (before ++ core ++ after).getLast? := by
  cases hlast : (core ++ after).getLast? with
  | none => simp_all
  | some r => simp only [List.append_assoc, List.getLast?_append, hlast, Option.some_or]

theorem head?_pad {before core after : Text} (a : Text) (hcore : core ≠ []) :
    (before ++ core ++ a).head? = (before ++ core ++ after).head? := by
  cases hhead : (before ++ core).head? with
  | none => simp_all
  | some r => simp only [List.head?_append, hhead, Option.some_or]

/-- A derived text has a tight core, and the blanks around it can be changed at will. -/
theorem Derives.exists_core {level : Level} {source : Text} {e : Expr}
    (h : Derives level source e) :
    ∃ before core after, Blank before ∧ Blank after ∧ Tight core ∧
      source = before ++ core ++ after ∧
      ∀ b a, Blank b → Blank a → Derives level (b ++ core ++ a) e := by
  induction h with
  | operand _ ih =>
      obtain ⟨before, core, after, hb, ha, hcore, hsource, hpad⟩ := ih
      exact ⟨before, core, after, hb, ha, hcore, hsource,
        fun b a hb' ha' => .operand (hpad b a hb' ha')⟩
  | @chain level op left right _ _ hop hbreak _ _ ihl ihr =>
      obtain ⟨bl, cl, al, hbl, _, hcl, rfl, hpadl⟩ := ihl
      obtain ⟨br, cr, ar, hbr, har, hcr, rfl, hpadr⟩ := ihr
      refine ⟨bl, cl ++ (al ++ op.spelling ++ br) ++ cr, ar, hbl, har, hcl.join _ hcr,
        by simp only [List.append_assoc], ?_⟩
      intro b a hb ha
      have hassoc : b ++ (cl ++ (al ++ op.spelling ++ br) ++ cr) ++ a =
          (b ++ cl ++ al) ++ op.spelling ++ (br ++ cr ++ a) := by
        simp only [List.append_assoc]
      rw [hassoc]
      refine .chain hop (fun hword => ?_) (hpadl b al hb ‹_›) (hpadr br a hbr ha)
      exact (hbreak hword).congr (getLast?_pad b hcl.ne_nil) (head?_pad a hcr.ne_nil)
  | @sign op before source _ hop hbefore _ ih =>
      obtain ⟨b₀, core, a₀, hb₀, ha₀, hcore, rfl, hpad⟩ := ih
      refine ⟨before, op.spelling ++ b₀ ++ core, a₀, hbefore, ha₀, (tight_sign hop).join _ hcore,
        by simp only [List.append_assoc], ?_⟩
      intro b a hb ha
      have hassoc : b ++ (op.spelling ++ b₀ ++ core) ++ a =
          b ++ op.spelling ++ (b₀ ++ core ++ a) := by
        simp only [List.append_assoc]
      rw [hassoc]
      exact .sign hop hb (hpad b₀ a hb₀ ha)
  | number hb ha hdigits hvalue =>
      exact ⟨_, _, _, hb, ha, tight_numeral hdigits, rfl,
        fun b a hb' ha' => .number hb' ha' hdigits hvalue⟩
  | identifier hb ha hname =>
      exact ⟨_, _, _, hb, ha, tight_identifier hname, rfl,
        fun b a hb' ha' => .identifier hb' ha' hname⟩
  | group hb ha hinner _ =>
      exact ⟨_, _, _, hb, ha, tight_group _, rfl, fun b a hb' ha' => .group hb' ha' hinner⟩

theorem Derives.ne_nil {level : Level} {source : Text} {e : Expr} (h : Derives level source e) :
    source ≠ [] := by
  obtain ⟨before, core, after, _, _, hcore, rfl, _⟩ := h.exists_core
  simp [hcore.ne_nil]

/-- Outer blanks do not matter. -/
theorem derives_trim_iff {level : Level} {source : Text} {e : Expr} :
    Derives level source.trim e ↔ Derives level source e := by
  constructor
  · intro h
    obtain ⟨before, after, hb, ha, hsource⟩ := Text.exists_trim_eq source
    obtain ⟨b, core, a, hb', ha', _, hcore, hpad⟩ := h.exists_core
    have hassoc : source = (before ++ b) ++ core ++ (a ++ after) := by
      rw [hsource, hcore]
      simp only [List.append_assoc]
    rw [hassoc]
    exact hpad _ _ (hb.append hb') (ha'.append ha)
  · intro h
    obtain ⟨before, core, after, hb, ha, hcore, rfl, hpad⟩ := h.exists_core
    rw [Text.trim_pad hb ha hcore]
    simpa using hpad [] [] Text.blank_nil Text.blank_nil

end Tortoise.Expr
