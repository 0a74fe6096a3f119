import Tortoise.Proofs.Expr.SoftFaults
import Mathlib.Algebra.Group.Int.Defs
import Mathlib.Algebra.Group.Nat.Defs

/-!
# Exact arithmetic

Numbers wrap at every operation. Sums, differences and products commute with that, so a tree of
these is the exact integer, wrapped once at the end. Quotients and comparisons do not; a tree with
any operators is exact as long as no result on the way leaves the range of a number.
-/

namespace Tortoise

/-- The exact value of an operator on integers. Division goes toward zero; by zero it gives 0. -/
def Infix.exact : Infix → Int → Int → Int
  | add, a, b => a + b
  | sub, a, b => a - b
  | mul, a, b => a * b
  | div, a, b => if b = 0 then 0 else a.tdiv b
  | equal, a, b => if a = b then 1 else 0
  | greater, a, b => if a > b then 1 else 0
  | less, a, b => if a < b then 1 else 0
  | and, a, b => if a = 0 then 0 else if b = 0 then 0 else 1
  | or, a, b => if a ≠ 0 then 1 else if b = 0 then 0 else 1
  | unknown _ _, _, _ => 0

def Prefix.exact : Prefix → Int → Int
  | negate, a => -a
  | complement, a => if a = 0 then 1 else 0
  | unknown _ _, _ => 0

def Representable (n : Int) : Prop := -2 ^ 63 ≤ n ∧ n ≤ 2 ^ 63 - 1

instance (n : Int) : Decidable (Representable n) :=
  inferInstanceAs (Decidable (-2 ^ 63 ≤ n ∧ n ≤ 2 ^ 63 - 1))

namespace Expr

def exact (env : Valuation) : Expr → Int
  | literal v => v.toInt
  | var name => ((env name).getD 0).toInt
  | unary op e => op.exact (e.exact env)
  | binary op l r => op.exact (l.exact env) (r.exact env)
  | _ => 0

def exactResults (env : Valuation) (e : Expr) : List Int :=
  (e.evaluated fun operand => operand.exact env == 0).map (exact env)

def isPolynomial : Expr → Bool
  | literal _ => true
  | var _ => true
  | unary .negate e => e.isPolynomial
  | binary .add l r => l.isPolynomial && r.isPolynomial
  | binary .sub l r => l.isPolynomial && r.isPolynomial
  | binary .mul l r => l.isPolynomial && r.isPolynomial
  | _ => false

end Expr

theorem bmod_of_representable {n : Int} (h : Representable n) : n.bmod (2 ^ 64) = n := by
  obtain ⟨hlow, hhigh⟩ := h
  apply Int.bmod_eq_of_le <;> omega

theorem toInt_truth (b : Bool) : (truth b).toInt = if b then 1 else 0 := by
  cases b <;> rfl

theorem toInt_eq_zero_iff {v : Int64} : v.toInt = 0 ↔ v = 0 := Int64.toInt_inj (y := 0)

theorem Infix.toInt_apply {op : Infix} {l r : Int64}
    (h : Representable (op.exact l.toInt r.toInt)) :
    (op.apply l r).toInt = op.exact l.toInt r.toInt := by
  cases op with
  | add => exact (Int64.toInt_add l r).trans (bmod_of_representable h)
  | sub => exact (Int64.toInt_sub l r).trans (bmod_of_representable h)
  | mul => exact (Int64.toInt_mul l r).trans (bmod_of_representable h)
  | div =>
      rw [apply, Int64.toInt_div, exact]
      by_cases hr : r.toInt = 0
      · rw [if_pos hr, hr, Int.tdiv_zero]
        rfl
      · rw [exact, if_neg hr] at h
        rw [if_neg hr, bmod_of_representable h]
  | equal => simp [apply, exact, toInt_truth, Int64.toInt_inj]
  | greater => simp [apply, exact, toInt_truth, Int64.lt_iff_toInt_lt]
  | less => simp [apply, exact, toInt_truth, Int64.lt_iff_toInt_lt]
  | and =>
      by_cases hl : l = 0 <;> by_cases hr : r = 0 <;>
        simp [apply, exact, toInt_truth, toInt_eq_zero_iff, hl, hr]
  | or =>
      by_cases hl : l = 0 <;> by_cases hr : r = 0 <;>
        simp [apply, exact, toInt_truth, toInt_eq_zero_iff, hl, hr]
  | unknown => rfl

theorem Infix.exact_of_isDecided {op : Infix} {a : Int} (h : op.isDecided (a == 0) = true)
    (b c : Int) : op.exact a b = op.exact a c := by
  cases op with
  | and =>
      have ha : a = 0 := beq_iff_eq.1 h
      simp [exact, ha]
  | or =>
      have ha : a ≠ 0 := by simpa [isDecided] using h
      simp [exact, ha]
  | _ => cases h

namespace Expr

variable {env : Valuation}

/-- A division by zero and an operand that is left out make no difference to the value. -/
theorem value_binary (env : Valuation) (op : Infix) (l r : Expr) :
    ((binary op l r).eval env).1 = op.apply (l.eval env).1 (r.eval env).1 := by
  cases op with
  | and => by_cases hl : (l.eval env).1 = 0 <;> simp [eval, Infix.apply, hl, truth]
  | or => by_cases hl : (l.eval env).1 = 0 <;> simp [eval, Infix.apply, hl, truth]
  | div => by_cases hr : (r.eval env).1 = 0 <;> simp [eval, Infix.apply, hr]
  | _ => rfl

theorem eval_of_isPolynomial {e : Expr} (h : e.isPolynomial = true) :
    (e.eval env).1 = Int64.ofInt (e.exact env) := by
  induction e with
  | literal v => exact v.ofInt_toInt.symm
  | var name => cases hvalue : env name <;> simp [eval, exact, hvalue]
  | unary op e ih =>
      cases op with
      | negate => simp [eval, exact, Prefix.exact, ih h, Int64.ofInt_neg]
      | _ => cases h
  | binary op l r ihl ihr =>
      rw [value_binary]
      cases op with
      | add | sub | mul =>
          obtain ⟨hl, hr⟩ := Bool.and_eq_true_iff.1 h
          simp [Infix.apply, exact, Infix.exact, ihl hl, ihr hr, Int64.ofInt_add, Int64.ofInt_sub,
            Int64.ofInt_mul]
      | _ => cases h
  | _ => cases h

theorem eval_of_representable {e : Expr} (h : ∀ n ∈ e.exactResults env, Representable n) :
    (e.eval env).1.toInt = e.exact env := by
  induction e with
  | absent | null | foreign | literal => rfl
  | var name => cases hvalue : env name <;> simp [eval, exact, hvalue]
  | unary op e ih =>
      cases op with
      | negate =>
          simp only [exactResults, evaluated, List.map_append, List.forall_mem_append] at h
          have hself : Representable (-e.exact env) := h.2 _ (List.mem_singleton.2 rfl)
          rw [exact, Prefix.exact, ← bmod_of_representable hself, ← ih h.1]
          exact Int64.toInt_neg _
      | complement =>
          simp only [exactResults, evaluated, List.map_append, List.forall_mem_append] at h
          simp [eval, exact, Prefix.exact, toInt_truth, ← ih h.1, toInt_eq_zero_iff]
      | unknown => rfl
  | binary op l r ihl ihr =>
      cases hknown : op.isKnown with
      | false =>
          cases op with
          | unknown => rfl
          | _ => cases hknown
      | true =>
          simp only [exactResults, evaluated_binary hknown, List.map_append,
            List.forall_mem_append] at h
          obtain ⟨⟨hleft, hright⟩, hself⟩ := h
          have hl := ihl hleft
          have hself : Representable (op.exact (l.exact env) (r.exact env)) :=
            hself _ (List.mem_singleton.2 rfl)
          have hsame : op.exact (l.eval env).1.toInt (r.eval env).1.toInt =
              op.exact (l.exact env) (r.exact env) := by
            rw [hl]
            cases hdecided : op.isDecided (l.exact env == 0) with
            | true => exact Infix.exact_of_isDecided hdecided _ _
            | false =>
                rw [hdecided] at hright
                rw [ihr hright]
          rw [value_binary, Infix.toInt_apply (hsame ▸ hself), hsame]
          rfl

/-- Wrapping is exact modulo 2⁶⁴. A tree of sums, differences, products and negations evaluates to
its exact integer, reduced once to a signed 64-bit number, however often it wraps on the way. A tree
with any operators evaluates to its exact integer if no result that its exact evaluation comes to
leaves the range of 64-bit numbers. -/
theorem wrapping_is_exact (env : Valuation) (e : Expr) :
    (e.isPolynomial = true → (e.eval env).1.toInt = (e.exact env).bmod (2 ^ 64)) ∧
      ((∀ n ∈ e.exactResults env, Representable n) → (e.eval env).1.toInt = e.exact env) := by
  refine ⟨fun h => ?_, eval_of_representable⟩
  rw [eval_of_isPolynomial h]
  exact Int64.toInt_ofInt

/-- A product and a difference beyond the range, and the least number halved where a product beyond
the range is left out. -/
theorem left_out_product_never_wraps :
    let env : Valuation := fun _ => some 0x4000000000000000
    let difference : Expr := .binary .sub (.binary .mul (.var "X") (.literal 4)) (.var "X")
    let halved : Expr := .binary .sub (.binary .div (.literal Int64.minValue) (.literal 2))
      (.binary .and (.literal 0) (.binary .mul (.var "X") (.var "X")))
    difference.exact env = 3 * 2 ^ 62 ∧ (difference.eval env).1.toInt = -2 ^ 62 ∧
      (∀ n ∈ halved.exactResults env, Representable n) ∧ (halved.eval env).1.toInt = -2 ^ 62 := by
  intro env difference halved
  have hexact : difference.exact env = 3 * 2 ^ 62 := by decide
  have hwords : ∀ n ∈ halved.exactResults env, Representable n := by decide
  have hhalved : halved.exact env = -2 ^ 62 := by decide
  refine ⟨hexact, ?_, hwords, ?_⟩
  · rw [(wrapping_is_exact env difference).1 rfl, hexact]
    rfl
  · rw [(wrapping_is_exact env halved).2 hwords, hhalved]

end Expr

end Tortoise
