import Tortoise.Proofs.Turtle.Walk

/-!
# The way back

A turtle that goes back the legs of a walk, the last one first, moving before it turns, comes to the
position and the heading that it started from. Each move back is made with the heading of the move
that it undoes, and the displacement of a move back is the opposite of that of the move, so that it
does not matter whether coordinates wrap on the way.
-/

namespace Tortoise

theorem Point.add_opposite (p q : Point) : (p.add q).add ⟨-q.x, -q.y⟩ = p := by
  simp only [Point.add, Int32.add_assoc, Int32.add_right_neg, Int32.add_zero]

namespace Trig

theorem roundAway_zero (e : Int) : roundAway 0 e = 0 := by
  unfold roundAway
  split
  · exact Nat.zero_mul _
  · rw [Nat.zero_add]
    exact Nat.div_eq_of_lt (Nat.pow_lt_pow_right (by omega) (by omega))

/-- Rounding treats both directions alike. -/
theorem scale64_neg (distance : Int) (factor : Dyadic) :
    scale64 (-distance) factor = -scale64 distance factor := by
  unfold scale64
  rw [Int.natAbs_neg, Int.neg_mul]
  rcases Int.lt_trichotomy (distance * factor.mantissa) 0 with hneg | hzero | hpos
  · simp only [hneg, if_true, if_neg (show ¬ -(distance * factor.mantissa) < 0 by omega),
      Int.neg_neg]
  · have habs : distance.natAbs * factor.mantissa.natAbs = 0 := by
      rw [← Int.natAbs_mul, hzero]
      rfl
    have hdouble : toDouble 0 = (0, 0) := rfl
    simp [habs, hzero, hdouble, roundAway_zero]
  · simp only [if_pos (show -(distance * factor.mantissa) < 0 by omega),
      if_neg (show ¬ distance * factor.mantissa < 0 by omega)]

end Trig

namespace Turtle

/-- Only the least number has no opposite. -/
theorem toInt_neg_of_lt {n : Int64} (h : -2 ^ 63 < n.toInt) : (-n).toInt = -n.toInt := by
  have hlt := n.toInt_lt
  rw [Int64.toInt_neg, Int.bmod_eq_of_le] <;> omega

theorem displacement_neg (heading : Int64) {distance : Int64} (h : -2 ^ 63 < distance.toInt) :
    displacement heading (-distance) =
      ⟨-(displacement heading distance).x, -(displacement heading distance).y⟩ := by
  simp only [displacement, toInt_neg_of_lt h, Trig.scale64_neg, Int32.ofInt_neg]

end Turtle

structure Leg where
  degrees : Int64
  distance : Int64

namespace Leg

/-- The turn is at most 2⁶² degrees and the move at most 33554431, in either direction. -/
def IsModest (leg : Leg) : Prop :=
  leg.degrees.toInt.natAbs ≤ 2 ^ 62 ∧ leg.distance.toInt.natAbs ≤ 33554431

instance (leg : Leg) : Decidable leg.IsModest := inferInstanceAs (Decidable (_ ∧ _))

def there (legs : List Leg) : List Deed :=
  legs.flatMap fun leg => [(.turn, leg.degrees), (.move, leg.distance)]

def back (legs : List Leg) : List Deed :=
  legs.reverse.flatMap fun leg => [(.move, -leg.distance), (.turn, -leg.degrees)]

theorem there_back_cons (leg : Leg) (legs : List Leg) :
    there (leg :: legs) ++ back (leg :: legs) =
      there [leg] ++ (there legs ++ back legs) ++ back [leg] := by
  simp [there, back]

end Leg

namespace Turtle

open Leg

variable {t t' : Turtle} {leg : Leg}

theorem IsAligned.toInt_turn (h : t.IsAligned) {degrees : Int64}
    (hmodest : degrees.toInt.natAbs ≤ 2 ^ 62) :
    (t.perform .turn degrees).1.heading.toInt = (t.heading.toInt + degrees.toInt) % 360 := by
  have hfits : ¬ t.Spills degrees := by
    have hlt := h.2
    unfold Spills
    omega
  rw [heading_perform, if_pos rfl, toInt_normalize, h.toInt_add, if_neg hfits, Int.sub_zero]

def Coincides (t t' : Turtle) : Prop := t'.position = t.position ∧ t'.heading = t.heading

/-- A turn that is undone behind a move leaves the heading as it was. -/
theorem IsAligned.heading_turned_back (ht : t.IsAligned) {degrees : Int64}
    (hmodest : degrees.toInt.natAbs ≤ 2 ^ 62)
    (h : t'.heading = (t.perform .turn degrees).1.heading) :
    (t'.perform .turn (-degrees)).1.heading = t.heading := by
  have hneg := toInt_neg_of_lt (show -2 ^ 63 < degrees.toInt by omega)
  have ht' : t'.IsAligned := by
    unfold IsAligned
    rw [h]
    exact ht.perform .turn degrees
  apply Int64.toInt_inj.1
  rw [ht'.toInt_turn (by omega), h, ht.toInt_turn hmodest, hneg, Int.emod_add_emod]
  have hturn : t.heading.toInt + degrees.toInt + -degrees.toInt = t.heading.toInt := by omega
  rw [hturn, Int.emod_eq_of_lt ht.1 ht.2]

/-- A leg is undone from wherever it led to. -/
theorem coincides_of_leg (ht : t.IsAligned) (hleg : leg.IsModest)
    (h : (t.after (there [leg])).Coincides t') : t.Coincides (t'.after (back [leg])) := by
  let t₁ := (t.perform .turn leg.degrees).1
  obtain ⟨hposition, hheading⟩ := h
  change t'.position = (t₁.perform .move leg.distance).1.position at hposition
  change t'.heading = t₁.heading at hheading
  change t.Coincides ((t'.perform .move (-leg.distance)).1.perform .turn (-leg.degrees)).1
  constructor
  · -- The move back is made with the heading of the move, so the two displacements cancel.
    have hdistance := hleg.2
    have hback := displacement_neg t₁.heading (show -2 ^ 63 < leg.distance.toInt by omega)
    change (t'.perform .move (-leg.distance)).1.position = t.position
    rw [position_perform, if_pos rfl, hheading, hback, hposition, position_perform, if_pos rfl,
      Point.add_opposite]
    rfl
  · exact ht.heading_turned_back hleg.1 hheading

theorem IsAligned.coincides_there_back (ht : t.IsAligned) {legs : List Leg}
    (hlegs : ∀ leg ∈ legs, leg.IsModest) : t.Coincides (t.after (there legs ++ back legs)) := by
  induction legs generalizing t with
  | nil => exact ⟨rfl, rfl⟩
  | cons leg legs ih =>
      obtain ⟨hleg, hlegs⟩ := List.forall_mem_cons.1 hlegs
      rw [there_back_cons, after_append, after_append]
      exact coincides_of_leg ht hleg (ih (ht.after _) hlegs)

/-- A walk can be undone. From wherever a turtle is, going the legs of a walk and going them back
leads to the same position and the same heading. -/
theorem walks_can_be_undone (deeds : List Deed) (legs : List Leg)
    (hlegs : ∀ leg ∈ legs, leg.IsModest) :
    let t := after {} deeds
    (t.after (there legs ++ back legs)).position = t.position ∧
      (t.after (there legs ++ back legs)).heading = t.heading :=
  (isAligned_new.after deeds).coincides_there_back hlegs

/-- Two moves forward lead to the left of the origin, since the coordinates wrap. They are undone
all the same. -/
theorem wrapped_walk_is_undone :
    let t := after {} [(.turn, 7)]
    let legs : List Leg :=
      [⟨-7, 33554431⟩, ⟨360, 33554431⟩, ⟨-4611686018427387904, -1⟩]
    (∀ leg ∈ legs, leg.IsModest) ∧ (t.after (there legs)).position.x < 0 ∧
      (t.after (there legs ++ back legs)).position = .origin ∧
      (t.after (there legs ++ back legs)).heading = 7 := by
  intro t legs
  have hlegs : ∀ leg ∈ legs, leg.IsModest := by decide
  obtain ⟨hposition, hheading⟩ := walks_can_be_undone [(.turn, 7)] legs hlegs
  exact ⟨hlegs, by decide +kernel, hposition, hheading⟩

end Turtle

end Tortoise
