import Mathlib.Algebra.Ring.Int.Defs
import Mathlib.Algebra.Ring.Nat
import Mathlib.Data.List.Infix
import Tortoise.Turtle.Basic

/-!
# Walks

What a turtle did is a list of deeds, actions with their arguments. Its heading and the distance
that it has travelled are sums over this list, each kept in a fixed number of bits.

A turn is added to the heading in 64 bits, and the sum is brought down to less than a whole turn
afterwards. The heading is never negative, so the sum can leave the range at its upper end only;
then the turtle ends up 16 degrees short. The distance is kept in 64ths in 32 bits: it is exact up
to 33554431 and wraps beyond that.
-/

namespace Tortoise

abbrev Deed := Action × Int64

namespace Deed

def arguments (a : Action) (deeds : List Deed) : List Int64 :=
  deeds.filterMap fun deed => if deed.1 = a then some deed.2 else none

def moments (deeds : List Deed) : List (List Deed × Deed) := deeds.inits.zip deeds

def turned (deeds : List Deed) : Int := ((arguments .turn deeds).map Int64.toInt).sum

def walked (deeds : List Deed) : Nat :=
  ((arguments .move deeds).map fun distance => distance.toInt.natAbs).sum

theorem arguments_append (a : Action) (deeds more : List Deed) :
    arguments a (deeds ++ more) = arguments a deeds ++ arguments a more :=
  List.filterMap_append

theorem arguments_singleton (a : Action) (deed : Deed) :
    arguments a [deed] = if deed.1 = a then [deed.2] else [] := by
  unfold arguments
  split <;> simp_all

theorem moments_concat (deeds : List Deed) (deed : Deed) :
    moments (deeds ++ [deed]) = moments deeds ++ [(deeds, deed)] := by
  induction deeds with
  | nil => rfl
  | cons first deeds ih =>
      unfold moments at ih ⊢
      simp only [List.cons_append, List.inits_cons, List.zip_cons_cons, List.zip_map_left, ih,
        List.map_append]
      rfl

theorem turned_concat (deeds : List Deed) (deed : Deed) :
    turned (deeds ++ [deed]) = turned deeds + if deed.1 = .turn then deed.2.toInt else 0 := by
  simp only [turned, arguments_append, arguments_singleton, List.map_append, List.sum_append]
  split <;> simp

theorem walked_append (deeds more : List Deed) :
    walked (deeds ++ more) = walked deeds + walked more := by
  simp only [walked, arguments_append, List.map_append, List.sum_append]

theorem walked_singleton (deed : Deed) :
    walked [deed] = if deed.1 = .move then deed.2.toInt.natAbs else 0 := by
  simp only [walked, arguments_singleton]
  split <;> simp

end Deed

namespace Turtle

open Deed

def after (t : Turtle) (deeds : List Deed) : Turtle :=
  deeds.foldl (fun t deed => (t.perform deed.1 deed.2).1) t

theorem after_append (t : Turtle) (deeds more : List Deed) :
    t.after (deeds ++ more) = (t.after deeds).after more :=
  List.foldl_append

theorem after_concat (t : Turtle) (deeds : List Deed) (deed : Deed) :
    t.after (deeds ++ [deed]) = ((t.after deeds).perform deed.1 deed.2).1 :=
  t.after_append deeds [deed]

theorem heading_perform (t : Turtle) (a : Action) (n : Int64) :
    (t.perform a n).1.heading = if a = .turn then normalize (t.heading + n) else t.heading := by
  cases a <;> rfl

theorem travelled_perform (t : Turtle) (a : Action) (n : Int64) :
    (t.perform a n).1.travelled =
      if a = .move then t.travelled + inSixtyFourths (abs n) else t.travelled := by
  cases a <;> rfl

theorem position_perform (t : Turtle) (a : Action) (n : Int64) :
    (t.perform a n).1.position =
      if a = .move then t.position.add (displacement t.heading n) else t.position := by
  cases a <;> rfl

theorem toInt_normalize (degrees : Int64) : (normalize degrees).toInt = degrees.toInt % 360 := by
  have h360 : (360 : Int64).toInt = 360 := rfl
  have hrem : (degrees % 360).toInt = degrees.toInt.tmod 360 := Int64.toInt_mod degrees 360
  have hlow := Int.lt_tmod_of_pos degrees.toInt (show (0 : Int) < 360 by omega)
  have hhigh := Int.tmod_lt_of_pos degrees.toInt (show (0 : Int) < 360 by omega)
  have hsum : (degrees % 360 + 360).toInt = degrees.toInt.tmod 360 + 360 := by
    rw [Int64.toInt_add, hrem, h360, Int.bmod_eq_of_le (by omega) (by omega)]
  have hsame : degrees.toInt.tmod 360 % 360 = degrees.toInt % 360 := by
    rw [Int.tmod_eq_emod]
    split <;> omega
  rw [normalize, Int64.toInt_mod, hsum, h360, Int.tmod_eq_emod_of_nonneg (by omega),
    Int.add_emod_right, hsame]

def IsAligned (t : Turtle) : Prop := 0 ≤ t.heading.toInt ∧ t.heading.toInt < 360

theorem IsAligned.perform {t : Turtle} (h : t.IsAligned) (a : Action) (n : Int64) :
    (t.perform a n).1.IsAligned := by
  unfold IsAligned
  rw [heading_perform]
  split
  · rw [toInt_normalize]
    omega
  · exact h

theorem IsAligned.after {t : Turtle} (h : t.IsAligned) (deeds : List Deed) :
    (t.after deeds).IsAligned := by
  induction deeds generalizing t with
  | nil => exact h
  | cons deed deeds ih => exact ih (h.perform deed.1 deed.2)

theorem isAligned_new : IsAligned {} := ⟨Int.le_refl 0, by decide⟩

def Spills (t : Turtle) (degrees : Int64) : Prop := 2 ^ 63 ≤ t.heading.toInt + degrees.toInt

instance (t : Turtle) (degrees : Int64) : Decidable (t.Spills degrees) :=
  inferInstanceAs (Decidable (_ ≤ _))

def spills (deeds : List Deed) : Nat :=
  (moments deeds).countP fun (before, deed) =>
    deed.1 = .turn ∧ (after {} before).Spills deed.2

theorem spills_concat (deeds : List Deed) (deed : Deed) :
    spills (deeds ++ [deed]) = spills deeds +
      if deed.1 = .turn ∧ (after {} deeds).Spills deed.2 then 1 else 0 := by
  simp [spills, moments_concat, List.countP_append, List.countP_singleton]

theorem spills_eq_zero {deeds : List Deed}
    (h : ∀ degrees ∈ arguments .turn deeds, degrees.toInt ≤ 2 ^ 63 - 360) : spills deeds = 0 := by
  induction deeds using List.reverseRecOn with
  | nil => rfl
  | append_singleton deeds deed ih =>
      rw [arguments_append, arguments_singleton, List.forall_mem_append] at h
      have hfits : ¬ (deed.1 = .turn ∧ (after {} deeds).Spills deed.2) := by
        rintro ⟨hturn, hspills⟩
        have hle := h.2 deed.2 (by simp [hturn])
        have hlt := (isAligned_new.after deeds).2
        unfold Spills at hspills
        omega
      rw [spills_concat, ih h.1, if_neg hfits]

theorem IsAligned.toInt_add {t : Turtle} (h : t.IsAligned) (degrees : Int64) :
    (t.heading + degrees).toInt =
      t.heading.toInt + degrees.toInt - if t.Spills degrees then 2 ^ 64 else 0 := by
  obtain ⟨hlow, hhigh⟩ := h
  have hmin := degrees.le_toInt
  have hmax := degrees.toInt_lt
  rw [Int64.toInt_add]
  -- Below the range there is nothing to split: the heading is not negative.
  by_cases hspills : t.Spills degrees
  · rw [if_pos hspills]
    unfold Spills at hspills
    rw [← Int.sub_bmod_right, Int.bmod_eq_of_le] <;> omega
  · rw [if_neg hspills]
    unfold Spills at hspills
    rw [Int.bmod_eq_of_le] <;> omega

/-- A turn that does not fit is 2⁶⁴ degrees short of what was asked for, which is 16 degrees and
whole turns. -/
theorem toInt_heading (deeds : List Deed) :
    (after {} deeds).heading.toInt = (turned deeds - 16 * spills deeds) % 360 := by
  induction deeds using List.reverseRecOn with
  | nil => rfl
  | append_singleton deeds deed ih =>
      have hsum := (isAligned_new.after deeds).toInt_add deed.2
      rw [after_concat, heading_perform, turned_concat, spills_concat]
      by_cases hturn : deed.1 = .turn
      · simp only [hturn, if_true, true_and, toInt_normalize, hsum]
        split <;> omega
      · simpa [hturn] using ih

theorem toInt_heading_eq_iff (deeds : List Deed) :
    (after {} deeds).heading.toInt = turned deeds % 360 ↔ 45 ∣ spills deeds := by
  rw [toInt_heading]
  constructor
  · intro hexact
    omega
  · rintro ⟨rounds, hrounds⟩
    omega

theorem toInt_abs (n : Int64) : (abs n).toInt = (n.toInt.natAbs : Int).bmod (2 ^ 64) := by
  have hlow := n.le_toInt
  have hhigh := n.toInt_lt
  unfold abs
  split
  next hneg =>
    have hneg : n.toInt < 0 := Int64.lt_iff_toInt_lt.1 hneg
    rw [Int64.toInt_neg]
    congr 1
    omega
  next hpos =>
    have hpos : ¬ n.toInt < 0 := fun h => hpos (Int64.lt_iff_toInt_lt.2 h)
    rw [Int.bmod_eq_of_le (by omega) (by omega)]
    omega

theorem shiftLeft_six (n : Int64) : n <<< 6 = n * 64 := by
  apply Int64.toBitVec_inj.1
  rw [Int64.toBitVec_shiftLeft, Int64.toBitVec_mul]
  change n.toBitVec <<< 6 = _
  rw [BitVec.shiftLeft_eq_mul_twoPow]
  rfl

theorem toInt_inSixtyFourths (n : Int64) :
    (inSixtyFourths (abs n)).toInt = (64 * (n.toInt.natAbs : Int)).bmod (2 ^ 32) := by
  have h64 : (64 : Int64).toInt = 64 := rfl
  -- What is wrapped to 64 bits first is the same in 32 bits, even for the least number.
  have hdvd : (2 ^ 32 : Nat) ∣ 2 ^ 64 := Nat.pow_dvd_pow 2 (by omega)
  rw [inSixtyFourths, shiftLeft_six, Int64.toInt_toInt32, Int64.toInt_mul, h64, toInt_abs,
    Int.bmod_mul_bmod, Int.bmod_bmod_of_dvd hdvd, Int.mul_comm]

theorem toInt_travelled (deeds : List Deed) :
    (after {} deeds).travelled.toInt = (64 * (walked deeds : Int)).bmod (2 ^ 32) := by
  induction deeds using List.reverseRecOn with
  | nil => rfl
  | append_singleton deeds deed ih =>
      rw [after_concat, travelled_perform, walked_append, walked_singleton]
      by_cases hmove : deed.1 = .move
      · rw [if_pos hmove, if_pos hmove, Int32.toInt_add, ih, toInt_inSixtyFourths,
          Int.bmod_add_bmod, Int.add_bmod_bmod, Int.natCast_add, Int.mul_add]
      · rw [if_neg hmove, if_neg hmove, ih, Nat.add_zero]

/-- The most that a turtle can travel without losing count. -/
def maxDistance : Nat := 33554431

theorem toInt_travelled_eq_iff (deeds : List Deed) :
    (after {} deeds).travelled.toInt = 64 * walked deeds ↔ walked deeds ≤ maxDistance := by
  unfold maxDistance
  constructor
  · intro hexact
    have hlt := (after {} deeds).travelled.toInt_lt
    omega
  · intro hle
    rw [toInt_travelled, Int.bmod_eq_of_le] <;> omega

theorem travelled_le_of_append {deeds more : List Deed} (h : walked (deeds ++ more) ≤ maxDistance) :
    (after {} deeds).travelled ≤ (after {} (deeds ++ more)).travelled := by
  have hmore := (toInt_travelled_eq_iff (deeds ++ more)).2 h
  rw [walked_append] at h hmore
  have hdeeds := (toInt_travelled_eq_iff deeds).2 (by omega)
  rw [Int32.le_iff_toInt_le, hdeeds, hmore]
  omega

/-- The heading of a turtle is always less than a whole turn. It is the sum of all turns less 16
degrees for each turn that did not fit. So it is exact if and only if the number of these is a
multiple of 45; there are none if no turn comes within 360 degrees of the end of the range. The
distance is 64 times the sum of all distances, wrapped to 32 bits. It is exact if and only if that
sum is at most 33554431, and up to there it never decreases. -/
theorem heading_and_distance_exact_within_range (deeds : List Deed) :
    (0 ≤ (after {} deeds).heading.toInt ∧ (after {} deeds).heading.toInt < 360) ∧
    (after {} deeds).heading.toInt = (turned deeds - 16 * spills deeds) % 360 ∧
    ((after {} deeds).heading.toInt = turned deeds % 360 ↔ 45 ∣ spills deeds) ∧
    ((∀ degrees ∈ arguments .turn deeds, degrees.toInt ≤ 2 ^ 63 - 360) → spills deeds = 0) ∧
    (after {} deeds).travelled.toInt = (64 * (walked deeds : Int)).bmod (2 ^ 32) ∧
    ((after {} deeds).travelled.toInt = 64 * walked deeds ↔ walked deeds ≤ maxDistance) ∧
    ∀ more, walked (deeds ++ more) ≤ maxDistance →
      (after {} deeds).travelled ≤ (after {} (deeds ++ more)).travelled := by
  refine ⟨isAligned_new.after deeds, toInt_heading deeds, toInt_heading_eq_iff deeds,
    spills_eq_zero, toInt_travelled deeds, toInt_travelled_eq_iff deeds, ?_⟩
  intro more h
  exact travelled_le_of_append h

/-- The largest turn that always fits behind the largest heading, and a way that is as long as it
can be, half of it backward. -/
theorem largest_turn_and_longest_way :
    let deeds : List Deed := [(.turn, -1), (.turn, 9223372036854775448), (.move, -16777216)]
    let more : List Deed := [(.move, 16777215)]
    turned deeds = 9223372036854775447 ∧ walked (deeds ++ more) = maxDistance ∧
      (after {} deeds).heading.toInt = 9223372036854775447 % 360 ∧
      (after {} (deeds ++ more)).travelled.toInt = 2147483584 ∧
      (after {} deeds).travelled ≤ (after {} (deeds ++ more)).travelled := by
  intro deeds more
  have hturned : turned deeds = 9223372036854775447 := by decide
  have hwalked : walked (deeds ++ more) = maxDistance := by decide
  have hmodest : ∀ degrees ∈ arguments .turn deeds, degrees.toInt ≤ 2 ^ 63 - 360 := by
    simp [arguments, deeds]
  obtain ⟨-, hheading, -, hfits, -, -, hmore⟩ := heading_and_distance_exact_within_range deeds
  obtain ⟨-, -, -, -, -, hway, -⟩ := heading_and_distance_exact_within_range (deeds ++ more)
  refine ⟨hturned, hwalked, ?_, ?_, hmore more (Nat.le_of_eq hwalked)⟩
  · rw [hheading, hfits hmodest, hturned]
    rfl
  · rw [hway.2 (Nat.le_of_eq hwalked), hwalked]
    rfl

/-- A turn by one degree and one by 2⁶³ - 1 degrees make 8 degrees and whole turns, but lead to 352
degrees. A step more than the longest way makes the distance negative. -/
theorem heading_and_distance_wrap :
    (turned [(.turn, 1), (.turn, 9223372036854775807)] % 360 = 8 ∧
      (after {} [(.turn, 1), (.turn, 9223372036854775807)]).heading = 352) ∧
    (walked [(.move, 33554431), (.move, 1)] = 33554432 ∧
      (after {} [(.move, 33554431), (.move, 1)]).travelled = -2147483648) := by
  decide

end Turtle

end Tortoise
