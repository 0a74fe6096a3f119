import Tortoise.Cbor.Field
import Tortoise.Proofs.Cbor.Canonical

/-!
# Records read back

A record is read as the fields it was written from, and a field as the value it was written from.
-/

namespace Tortoise.Cbor

theorem recordOf_fields (fields : List (Nat × Item)) :
    recordOf (fields.flatMap fun (number, item) => [.unsigned number, item]) = some fields := by
  induction fields with
  | nil => rfl
  | cons field fields ih =>
      rw [List.flatMap_cons]
      simp only [List.cons_append, List.nil_append, recordOf, fieldOf, ih, Option.bind_eq_bind,
        Option.bind_some, Option.pure_def]

theorem Item.record?_ofFields (fields : List (Nat × Item)) :
    (ofFields fields).record? = some fields :=
  recordOf_fields fields

theorem length_fields (fields : List (Nat × Item)) :
    (fields.flatMap fun (number, item) => [Item.unsigned number, item]).length =
      2 * fields.length := by
  induction fields with
  | nil => rfl
  | cons field fields ih =>
      rw [List.flatMap_cons, List.length_append, ih, List.length_cons]
      simp only [List.length_cons, List.length_nil]
      omega

theorem forall_mem_fields_iff {P : Item → Prop} {fields : List (Nat × Item)} :
    (∀ item ∈ fields.flatMap fun (number, item) => [Item.unsigned number, item], P item) ↔
      ∀ field ∈ fields, P (.unsigned field.1) ∧ P field.2 := by
  simp only [List.mem_flatMap]
  constructor
  · intro h field hmem
    exact ⟨h _ ⟨field, hmem, by simp⟩, h _ ⟨field, hmem, by simp⟩⟩
  · rintro h item ⟨field, hmem, hitem⟩
    simp only [List.mem_cons, List.not_mem_nil, or_false] at hitem
    rcases hitem with rfl | rfl
    · exact (h field hmem).1
    · exact (h field hmem).2

theorem Item.fits_ofFields_iff {fields : List (Nat × Item)} {levels : Nat} {tagged : Bool} :
    (ofFields fields).Fits (levels + 1) tagged ↔
      fields.length ≤ maxCount ∧ ∀ field ∈ fields, field.2.Fits levels false := by
  rw [ofFields, fits_map_iff, length_fields, forall_mem_fields_iff,
    Nat.mul_div_cancel_left _ (by decide)]
  simp only [Fits.unsigned, true_and]

theorem Item.canonical_ofFields {fields : List (Nat × Item)} (hlength : fields.length < 2 ^ 63)
    (h : ∀ field ∈ fields, field.1 < 2 ^ 64 ∧ field.2.Canonical) : (ofFields fields).Canonical := by
  refine .map ?_ ?_ (forall_mem_fields_iff.2 fun field hmem => ?_)
  · rw [length_fields]
    omega
  · rw [length_fields]
    exact Nat.mul_mod_right 2 _
  · exact ⟨.unsigned (h field hmem).1, (h field hmem).2⟩

theorem Item.canonical_ofInt {n : Int} (h : -2 ^ 63 ≤ n ∧ n < 2 ^ 63) : (ofInt n).Canonical := by
  unfold ofInt
  split
  · exact .unsigned (by omega)
  · exact .negative (by omega)

theorem Item.fits_ofInt (n : Int) (levels : Nat) : (ofInt n).Fits levels false := by
  unfold ofInt
  split
  · exact .unsigned
  · exact .negative

theorem Item.toInt?_ofInt (n : Int) : (ofInt n).toInt? = some n := by
  unfold ofInt
  split
  · next h => simp only [toInt?, Int.toNat_of_nonneg h]
  · next h =>
    simp only [toInt?]
    congr 1
    omega

theorem Item.untagged_ofInt (n : Int) : (ofInt n).untagged = some (ofInt n) := by
  unfold ofInt
  split <;> rfl

theorem Item.int64?_ofInt {n : Int} (h : -2 ^ 63 ≤ n ∧ n < 2 ^ 63) :
    (ofInt n).int64? = some (Int64.ofInt n) := by
  rw [int64?, untagged_ofInt]
  simp only [Option.bind_eq_bind, Option.bind_some, toInt?_ofInt]
  exact if_pos h

theorem Item.uint8?_unsigned (k : UInt8) : (unsigned k.toNat).uint8? = some k := by
  have hk := k.toNat_lt
  simp only [uint8?, untagged, toInt?, Option.bind_eq_bind, Option.bind_some]
  rw [if_pos ⟨by omega, by omega⟩, Int.toNat_natCast, UInt8.ofNat_toNat]

theorem Item.uint8?_ofInt (k : UInt8) : (ofInt k.toNat).uint8? = some k := by
  rw [ofInt, if_pos (Int.natCast_nonneg _), Int.toNat_natCast]
  exact uint8?_unsigned k

theorem Item.canonical_ofText {t : Text} (h : t.size < 2 ^ 63) : (ofText t).Canonical :=
  .text (by rwa [Text.length_bytes])

theorem Item.fits_ofText {t : Text} (h : t.size < 2 ^ 63) (levels : Nat) :
    (ofText t).Fits levels false := by
  refine .text ?_
  rwa [List.flatten_singleton, Text.length_bytes]

/-- A text is read back if it is well-formed, and refused otherwise. -/
theorem Item.text?_ofText {t u : Text} (h : Text.ofBytes t.bytes = t) :
    (ofText t).text? = some u ↔ t.isWellFormed = true ∧ u = t := by
  change textOfChunks? [t.bytes] = some u ↔ _
  unfold textOfChunks?
  simp only [List.all_cons, List.all_nil, Bool.and_true, List.flatten_singleton, h]
  by_cases hwell : t.isWellFormed = true
  · simp [hwell, eq_comm]
  · simp [hwell]

end Tortoise.Cbor
