import Tortoise.Proofs.Turtle.Walk

/-!
# Drawings

What a turtle has drawn can be read off its deeds. Every move of some length with the pen down
leaves one segment, from where the turtle stood to where it stands then, in the color and the
thickness that were set last. The turtle stands where its displacements lead from the origin, in
coordinates that wrap. Its bounds are the least rectangle around the origin and all segments.
-/

namespace Tortoise

def Deed.latest (a : Action) (default : Int64) (deeds : List Deed) : Int64 :=
  (arguments a deeds).getLast?.getD default

theorem Deed.latest_concat (a : Action) (default : Int64) (deeds : List Deed) (deed : Deed) :
    latest a default (deeds ++ [deed]) =
      if deed.1 = a then deed.2 else latest a default deeds := by
  unfold latest
  rw [arguments_append, arguments_singleton]
  split <;> simp

namespace Bounds

def Contains (b : Bounds) (p : Point) : Prop :=
  (b.least.x ≤ p.x ∧ p.x ≤ b.greatest.x) ∧ (b.least.y ≤ p.y ∧ p.y ≤ b.greatest.y)

instance (b : Bounds) (p : Point) : Decidable (b.Contains p) :=
  inferInstanceAs (Decidable (_ ∧ _))

def Within (b c : Bounds) : Prop :=
  (c.least.x ≤ b.least.x ∧ b.greatest.x ≤ c.greatest.x) ∧
    (c.least.y ≤ b.least.y ∧ b.greatest.y ≤ c.greatest.y)

theorem within_refl (b : Bounds) : b.Within b :=
  ⟨⟨Int32.le_refl _, Int32.le_refl _⟩, ⟨Int32.le_refl _, Int32.le_refl _⟩⟩

theorem Within.contains {b c : Bounds} (h : b.Within c) {p : Point} (hp : b.Contains p) :
    c.Contains p := by
  obtain ⟨⟨hleft, hright⟩, hlow, hhigh⟩ := h
  obtain ⟨⟨hpleft, hpright⟩, hplow, hphigh⟩ := hp
  exact ⟨⟨Int32.le_trans hleft hpleft, Int32.le_trans hpright hright⟩,
    Int32.le_trans hlow hplow, Int32.le_trans hphigh hhigh⟩

theorem max_coordinate_le_iff {u v w : Int32} : max u v ≤ w ↔ u ≤ w ∧ v ≤ w := by
  change (if u ≤ v then v else u) ≤ w ↔ _
  split <;> grind

theorem extend_within_iff {b c : Bounds} {p : Point} :
    (b.extend p).Within c ↔ b.Within c ∧ c.Contains p := by
  simp only [extend, Within, Contains, Std.le_min_iff, max_coordinate_le_iff]
  tauto

end Bounds

namespace Turtle

open Deed

def IsFramedBy (t : Turtle) (c : Bounds) : Prop :=
  c.Contains .origin ∧ ∀ s ∈ t.segments, c.Contains s.source ∧ c.Contains s.target

instance (t : Turtle) (c : Bounds) : Decidable (t.IsFramedBy c) :=
  inferInstanceAs (Decidable (_ ∧ _))

/-- A rectangle frames a turtle if and only if the bounds are within it. So the bounds themselves
frame the turtle, and no smaller rectangle does. -/
theorem bounds_within_iff {t : Turtle} {c : Bounds} :
    t.bounds.Within c ↔ t.IsFramedBy c := by
  -- For any rectangle to start with, since the fold widens it at every segment.
  have hfold (segments : List Segment) (b : Bounds) :
      (segments.foldl (fun b s => (b.extend s.source).extend s.target) b).Within c ↔
        b.Within c ∧ ∀ s ∈ segments, c.Contains s.source ∧ c.Contains s.target := by
    induction segments generalizing b with
    | nil => simp
    | cons s segments ih =>
        rw [List.foldl_cons, ih, Bounds.extend_within_iff, Bounds.extend_within_iff,
          List.forall_mem_cons, and_assoc, and_assoc, and_assoc]
  rw [bounds, ← Array.foldl_toList, hfold, IsFramedBy]
  simp only [Array.mem_toList_iff]
  exact Iff.rfl

theorem pen_perform (t : Turtle) (a : Action) (n : Int64) :
    (t.perform a n).1.pen =
      { color := if a = .color then n else t.pen.color
        thickness := if a = .thickness then n else t.pen.thickness
        isDown := if a = .stroke then n != 0 else t.pen.isDown } := by
  cases a <;> rfl

theorem pen_after (deeds : List Deed) :
    (after {} deeds).pen =
      { color := latest .color 0 deeds
        thickness := latest .thickness 1 deeds
        isDown := latest .stroke 0 deeds != 0 } := by
  induction deeds using List.reverseRecOn with
  | nil => rfl
  | append_singleton deeds deed ih =>
      simp only [after_concat, pen_perform, ih, latest_concat]
      congr 1
      split <;> rfl

def segment? (before : List Deed) (deed : Deed) : Option Segment :=
  if deed.1 = .move ∧ deed.2 ≠ 0 ∧ latest .stroke 0 before ≠ 0 then
    some
      { source := (after {} before).position
        target := (after {} (before ++ [deed])).position
        color := latest .color 0 before
        thickness := latest .thickness 1 before }
  else none

theorem segments_perform (t : Turtle) (a : Action) (n : Int64) :
    (t.perform a n).1.segments =
      if a = .move ∧ n ≠ 0 ∧ t.pen.isDown = true then
        t.segments.push ⟨t.position, (t.perform a n).1.position, t.pen.color, t.pen.thickness⟩
      else t.segments := by
  cases a with
  | move =>
      have hdrawn : (t.pen.isDown && n != 0) = true ↔ n ≠ 0 ∧ t.pen.isDown = true := by
        simp [and_comm]
      simp only [perform, move, hdrawn, true_and]
  | _ => rfl

theorem segments_after (deeds : List Deed) :
    (after {} deeds).segments.toList =
      (moments deeds).filterMap fun (before, deed) => segment? before deed := by
  induction deeds using List.reverseRecOn with
  | nil => rfl
  | append_singleton deeds deed ih =>
      rw [moments_concat, List.filterMap_append, ← ih, after_concat, segments_perform, pen_after]
      by_cases hdrawn : deed.1 = .move ∧ deed.2 ≠ 0 ∧ latest .stroke 0 deeds ≠ 0
      · simp [segment?, hdrawn, after_concat]
      · simp [segment?, hdrawn]

def displacements (deeds : List Deed) : List Point :=
  (moments deeds).filterMap fun (before, deed) =>
    if deed.1 = .move then some (displacement (after {} before).heading deed.2) else none

theorem position_after (deeds : List Deed) :
    (after {} deeds).position =
      ⟨.ofInt ((displacements deeds).map fun p => p.x.toInt).sum,
       .ofInt ((displacements deeds).map fun p => p.y.toInt).sum⟩ := by
  induction deeds using List.reverseRecOn with
  | nil => rfl
  | append_singleton deeds deed ih =>
      rw [after_concat, position_perform, ih]
      unfold displacements
      rw [moments_concat, List.filterMap_append]
      by_cases hmove : deed.1 = .move
      · simp [hmove, Point.add, Int32.ofInt_add]
      · simp [hmove]

/-- The drawing of a turtle follows from its deeds. It has one segment for each move of some length
with the pen down, in order, from the position before the move to the one after it, in the color and
the thickness that were set last. The position is the sum of all displacements, wrapped to 32 bits.
The bounds frame the drawing, and all their points are in every rectangle that does. -/
theorem drawing_follows_deeds (deeds : List Deed) :
    (after {} deeds).segments.toList =
      (moments deeds).filterMap (fun (before, deed) => segment? before deed) ∧
    (after {} deeds).position =
      ⟨.ofInt ((displacements deeds).map fun p => p.x.toInt).sum,
       .ofInt ((displacements deeds).map fun p => p.y.toInt).sum⟩ ∧
    (after {} deeds).IsFramedBy (after {} deeds).bounds ∧
    ∀ c, (after {} deeds).IsFramedBy c →
      ∀ p, (after {} deeds).bounds.Contains p → c.Contains p := by
  refine ⟨segments_after deeds, position_after deeds, ?_, ?_⟩
  · exact bounds_within_iff.1 (Bounds.within_refl _)
  · intro c hframed p hp
    exact (bounds_within_iff.2 hframed).contains hp

/-- The pen is lowered behind the first move; a move by nothing and one with the pen up leave no
segment, but the last one counts for the position. -/
theorem two_moves_are_drawn :
    let deeds : List Deed := [(.move, 5), (.stroke, 1), (.color, 2), (.thickness, 3), (.move, 10),
      (.move, 0), (.turn, 90), (.color, 4), (.move, -20), (.stroke, 0), (.move, 5)]
    let frame : Bounds := ⟨⟨-64, -1280⟩, ⟨960, 64⟩⟩
    (after {} deeds).segments.toList =
        [⟨⟨320, 0⟩, ⟨960, 0⟩, 2, 3⟩, ⟨⟨960, 0⟩, ⟨960, -1280⟩, 4, 3⟩] ∧
      (after {} deeds).position = ⟨960, -960⟩ ∧
      (after {} deeds).bounds = ⟨⟨0, -1280⟩, ⟨960, 0⟩⟩ ∧
      (after {} deeds).IsFramedBy (after {} deeds).bounds ∧
      (after {} deeds).IsFramedBy frame ∧
      ∀ p, (after {} deeds).bounds.Contains p → frame.Contains p := by
  intro deeds frame
  have hturtle : after {} deeds =
      { position := ⟨960, -960⟩, heading := 90, pen := ⟨4, 3, false⟩, travelled := 2560
        segments := #[⟨⟨320, 0⟩, ⟨960, 0⟩, 2, 3⟩, ⟨⟨960, 0⟩, ⟨960, -1280⟩, 4, 3⟩] } := by
    decide +kernel
  have hframe : (after {} deeds).IsFramedBy frame := by
    rw [hturtle]
    decide
  obtain ⟨-, -, hframed, hleast⟩ := drawing_follows_deeds deeds
  refine ⟨?_, ?_, ?_, hframed, hframe, hleast frame hframe⟩
  · rw [hturtle]
  · rw [hturtle]
  · rw [hturtle]
    decide

end Turtle

end Tortoise
