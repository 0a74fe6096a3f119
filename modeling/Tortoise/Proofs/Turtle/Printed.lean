import Mathlib.Data.List.Basic
import Mathlib.Data.List.TakeDrop
import Mathlib.Algebra.Order.Field.Basic
import Mathlib.Algebra.Order.Ring.Rat
import Mathlib.Algebra.Ring.Parity
import Mathlib.Tactic.Linarith
import Mathlib.Tactic.NormNum
import Mathlib.Tactic.Ring
import Tortoise.Turtle.Basic

/-!
# Printed positions

A printed coordinate is a decimal with two digits behind the point, and the number that it denotes
is the nearest to the coordinate of all such numbers. Since 64ths lie further apart than hundredths,
a coordinate is known from its decimal, and a point from its text.
-/

namespace Tortoise

namespace Text

def decimal? (s : String) : Option ℚ :=
  let (negative, unsigned) := sign s.toList
  match unsigned.span Char.isDigit with
  | (whole, '.' :: digits) =>
    if whole = [] ∨ digits = [] ∨ !digits.all Char.isDigit then none
    else
      let magnitude : ℚ := Nat.ofDigitChars 10 (whole ++ digits) 0 / 10 ^ digits.length
      some (if negative then -magnitude else magnitude)
  | _ => none

theorem sign_digit {c : Char} (hc : c.isDigit = true) (s : List Char) :
    sign (c :: s) = (false, c :: s) := by
  unfold sign
  split
  next h =>
    obtain ⟨rfl, -⟩ := List.cons.inj h
    cases hc
  next h =>
    obtain ⟨rfl, -⟩ := List.cons.inj h
    cases hc
  next => rfl

theorem decimal?_written (negative : Bool) {whole digits : List Char} {value : ℚ}
    (hwhole : whole ≠ []) (hwhole' : ∀ c ∈ whole, c.isDigit = true)
    (hdigits : digits ≠ []) (hdigits' : ∀ c ∈ digits, c.isDigit = true)
    (hvalue : (Nat.ofDigitChars 10 (whole ++ digits) 0 : ℕ) / 10 ^ digits.length = value) :
    decimal? (String.ofList ((if negative then ['-'] else []) ++ (whole ++ '.' :: digits))) =
      some (if negative then -value else value) := by
  have hsign : sign ((if negative then ['-'] else []) ++ (whole ++ '.' :: digits)) =
      (negative, whole ++ '.' :: digits) := by
    cases negative with
    | true => rfl
    | false =>
        obtain ⟨c, more, rfl⟩ := List.exists_cons_of_ne_nil hwhole
        exact sign_digit (hwhole' c List.mem_cons_self) _
  have hpoint : ('.' : Char).isDigit = false := rfl
  have hspan : (whole ++ '.' :: digits).span Char.isDigit = (whole, '.' :: digits) := by
    rw [List.span_eq_takeWhile_dropWhile, List.takeWhile_append_of_pos hwhole',
      List.dropWhile_append_of_pos hwhole']
    simp [hpoint]
  have hall : digits.all Char.isDigit = true := List.all_eq_true.2 hdigits'
  simp only [decimal?, String.toList_ofList, hsign, hspan, hwhole, hdigits, hall, hvalue,
    Bool.not_true, Bool.false_eq_true, or_self, if_false]

end Text

namespace Point

/-- `k` hundredths are the nearest to `v` 64ths, and `k` is even if another number is as near. -/
structure IsRounded (v : Int32) (k : ℤ) : Prop where
  near : |(k : ℚ) / 100 - v.toInt / 64| ≤ 1 / 200
  even : |(k : ℚ) / 100 - v.toInt / 64| = 1 / 200 → Even k

def hundredths (v : Int32) : ℤ :=
  if v.toInt < 0 then -sixteenthToEven (25 * v.toInt.natAbs)
  else sixteenthToEven (25 * v.toInt.natAbs)

theorem sixteenthToEven_cases (n : Nat) :
    16 * sixteenthToEven n < n + 8 ∧ n < 16 * sixteenthToEven n + 8 ∨
      (16 * sixteenthToEven n = n + 8 ∨ n = 16 * sixteenthToEven n + 8) ∧
        Even (sixteenthToEven n) := by
  have hunit : Nat.pow 2 4 = 16 := rfl
  simp only [sixteenthToEven, Trig.halveToEven, hunit, Nat.even_iff]
  split <;> omega

theorem hundredths_cases (v : Int32) :
    |16 * hundredths v - 25 * v.toInt| < 8 ∨
      |16 * hundredths v - 25 * v.toInt| = 8 ∧ Even (hundredths v) := by
  have h := sixteenthToEven_cases (25 * v.toInt.natAbs)
  unfold hundredths
  simp only [Int.even_iff, Nat.even_iff] at h ⊢
  split <;> grind

theorem isRounded_hundredths (v : Int32) : IsRounded v (hundredths v) := by
  have hscale : |(hundredths v : ℚ) / 100 - v.toInt / 64| =
      (|16 * hundredths v - 25 * v.toInt| : ℤ) / 1600 := by
    rw [Int.cast_abs, ← abs_of_pos (show (0 : ℚ) < 1600 by norm_num), ← abs_div]
    push_cast
    congr 1
    ring
  have hle : |16 * hundredths v - 25 * v.toInt| ≤ 8 := by
    rcases hundredths_cases v with h | ⟨h, -⟩ <;> omega
  constructor
  · rw [hscale, div_le_iff₀ (by norm_num)]
    calc ((|16 * hundredths v - 25 * v.toInt| : ℤ) : ℚ) ≤ (8 : ℤ) := Int.cast_le.2 hle
      _ = 1 / 200 * 1600 := by norm_num
  · intro htie
    rw [hscale, div_eq_iff (by norm_num)] at htie
    have hcast : ((|16 * hundredths v - 25 * v.toInt| : ℤ) : ℚ) = (8 : ℤ) := by
      rw [htie]
      norm_num
    rcases hundredths_cases v with h | ⟨-, heven⟩
    · exact absurd (Int.cast_injective hcast) (Int.ne_of_lt h)
    · exact heven

theorem drop_toDigits {r : Nat} (hr : r < 100) :
    (Nat.toDigits 10 (100 + r)).drop 1 = [(r / 10).digitChar, (r % 10).digitChar] := by
  have htens : (100 + r) / 10 % 10 = r / 10 := by omega
  have hones : (100 + r) % 10 = r % 10 := by omega
  rw [Nat.toDigits_of_base_le (by decide) (show 10 ≤ 100 + r by omega),
    Nat.toDigits_of_base_le (by decide) (show 10 ≤ (100 + r) / 10 by omega),
    Nat.toDigits_of_lt_base (show (100 + r) / 10 / 10 < 10 by omega), htens, hones]
  rfl

/-- A coordinate as it is written: a minus if it is negative, digits, a point, and two digits. -/
theorem coordinate_eq (v : Int32) :
    let n := sixteenthToEven (25 * v.toInt.natAbs)
    coordinate v = String.ofList ((if decide (v.toInt < 0) then ['-'] else []) ++
      (Nat.toDigits 10 (n / 100) ++
        '.' :: [(n % 100 / 10).digitChar, (n % 100 % 10).digitChar])) := by
  intro n
  apply String.toList_injective
  rw [← drop_toDigits (Nat.mod_lt n (by decide))]
  by_cases hneg : v.toInt < 0 <;> simp [coordinate, Text.ofNat, hneg, n]

theorem ofDigitChars_hundredths (n : Nat) :
    Nat.ofDigitChars 10 (Nat.toDigits 10 (n / 100) ++
      [(n % 100 / 10).digitChar, (n % 100 % 10).digitChar]) 0 = n := by
  rw [Nat.ofDigitChars_append, Nat.ofDigitChars_ten_toDigits,
    Nat.ofDigitChars_cons_digitChar_of_lt_ten (by omega),
    Nat.ofDigitChars_cons_digitChar_of_lt_ten (by omega), Nat.ofDigitChars_nil]
  omega

theorem isDigit_of_mem_toDigits {c : Char} {n : Nat} (hc : c ∈ Nat.toDigits 10 n) :
    c.isDigit = true :=
  Nat.isDigit_of_mem_toDigits (by decide) (by decide) hc

theorem decimal?_coordinate (v : Int32) :
    Text.decimal? (coordinate v) = some ((hundredths v : ℚ) / 100) := by
  have hlast : ∀ c ∈ [(sixteenthToEven (25 * v.toInt.natAbs) % 100 / 10).digitChar,
      (sixteenthToEven (25 * v.toInt.natAbs) % 100 % 10).digitChar], c.isDigit = true := by
    simp only [List.mem_cons, List.not_mem_nil, or_false, forall_eq_or_imp, forall_eq,
      Nat.isDigit_digitChar, decide_eq_true_eq]
    omega
  rw [coordinate_eq, Text.decimal?_written _ Nat.toDigits_ne_nil
    (fun c => isDigit_of_mem_toDigits) (by simp) hlast rfl, ofDigitChars_hundredths]
  have hsquare : (10 : ℚ) ^ 2 = 100 := by norm_num
  by_cases hneg : v.toInt < 0 <;> simp [hundredths, hneg, hsquare, neg_div]

theorem comma_not_mem_coordinate (v : Int32) : ',' ∉ (coordinate v).toList := by
  have hdigits (n : Nat) : ',' ∉ Nat.toDigits 10 n := fun hc =>
    absurd (isDigit_of_mem_toDigits hc) (by decide)
  have hdigit (n : Nat) : ',' ≠ n.digitChar := (Nat.digitChar_ne ',' rfl).symm
  rw [coordinate_eq, String.toList_ofList]
  by_cases hneg : v.toInt < 0 <;> simp [hneg, hdigits, hdigit]

theorem toList_render (p : Point) : p.render.toList =
    '(' :: ((coordinate p.x).toList ++ ',' :: ' ' :: ((coordinate p.y).toList ++ [')'])) := by
  simp [render]

/-- Numbers of 64ths that are rounded to the same hundredth are the same: they differ by less
than one. -/
theorem eq_of_isRounded {v w : Int32} {k : ℤ} (hv : IsRounded v k) (hw : IsRounded w k) :
    v = w := by
  have hlt {v w : Int32} (hv : IsRounded v k) (hw : IsRounded w k) : v.toInt < w.toInt + 1 := by
    have hlow := (abs_le.1 hv.near).1
    have hhigh := (abs_le.1 hw.near).2
    have hcast : (v.toInt : ℚ) < ((w.toInt + 1 : ℤ) : ℚ) := by
      push_cast
      linarith
    exact Int.cast_lt.1 hcast
  exact Int32.toInt_inj.1 (Int.le_antisymm (Int.lt_add_one_iff.1 (hlt hv hw))
    (Int.lt_add_one_iff.1 (hlt hw hv)))

theorem coordinate_injective : Function.Injective coordinate := by
  intro v w h
  have hread := congrArg Text.decimal? h
  rw [decimal?_coordinate, decimal?_coordinate, Option.some_inj,
    div_left_inj' (by norm_num), Int.cast_inj] at hread
  have hw := isRounded_hundredths w
  rw [← hread] at hw
  exact eq_of_isRounded (isRounded_hundredths v) hw

/-- The only comma of the text stands between the two coordinates. -/
theorem render_injective : Function.Injective render := by
  intro p q h
  have hlist := congrArg String.toList h
  rw [toList_render, toList_render] at hlist
  have hbehind : ',' ∉ ' ' :: ((coordinate p.y).toList ++ [')']) := by
    simp [comma_not_mem_coordinate]
  obtain ⟨hx, -, hrest⟩ := (List.append_cons_inj_of_notMem (comma_not_mem_coordinate p.x)
    hbehind).1 (List.cons.inj hlist).2
  have hy := List.append_cancel_right (List.cons.inj hrest).2
  have hx := coordinate_injective (String.toList_injective hx)
  have hy := coordinate_injective (String.toList_injective hy)
  cases p
  cases q
  exact congrArg₂ Point.mk hx hy

end Point

/-- A point is known from its text, in which each coordinate is written as the nearest decimal
with two digits behind the point, so that it is off by at most half a hundredth. -/
theorem printed_positions_identify_points :
    Function.Injective Point.render ∧
      ∀ p : Point, ∃ (x y : String) (a b : ℤ), p.render = "(" ++ x ++ ", " ++ y ++ ")" ∧
        Text.decimal? x = some ((a : ℚ) / 100) ∧ Point.IsRounded p.x a ∧
        Text.decimal? y = some ((b : ℚ) / 100) ∧ Point.IsRounded p.y b :=
  ⟨Point.render_injective, fun p => ⟨_, _, _, _, rfl,
    Point.decimal?_coordinate p.x, Point.isRounded_hundredths p.x,
    Point.decimal?_coordinate p.y, Point.isRounded_hundredths p.y⟩⟩

-- 12.5 and 37.5 hundredths
example : Point.render ⟨-8, 24⟩ = "(-0.12, 0.38)" := by
  decide

end Tortoise
