import Tortoise.Disk.Basic
import Tortoise.Proofs.Success

/-!
# Files that were written

A file that was written can be read at the same path, with the content it was given.
-/

namespace Tortoise.Disk

variable {d : Disk} {place target : List String} {content : Bytes}

theorem lookup_put_self (target : List String) (content : Bytes)
    (files : List (List String × Bytes)) :
    (put target content files).lookup target = some content := by
  induction files with
  | nil => simp [put]
  | cons file files ih =>
      obtain ⟨other, old⟩ := file
      by_cases h : target = other
      · simp [put, h]
      · rw [put, if_neg h, List.lookup_cons, beq_eq_false_iff_ne.2 h]
        exact ih

theorem lookup_put_of_ne (h : place ≠ target) (content : Bytes)
    (files : List (List String × Bytes)) :
    (put target content files).lookup place = files.lookup place := by
  induction files with
  | nil => simp [put, List.lookup_cons, beq_eq_false_iff_ne.2 h]
  | cons file files ih =>
      obtain ⟨other, old⟩ := file
      by_cases hother : target = other
      · subst hother
        simp [put, List.lookup_cons, beq_eq_false_iff_ne.2 h]
      · rw [put, if_neg hother, List.lookup_cons, List.lookup_cons, ih]

theorem any_put {p : List String → Bool} {files : List (List String × Bytes)}
    (h : files.any (p ·.1) = true) : (put target content files).any (p ·.1) = true := by
  induction files with
  | nil => cases h
  | cons file files ih =>
      obtain ⟨other, old⟩ := file
      by_cases hother : target = other
      · subst hother
        rw [put, if_pos rfl]
        exact h
      · rw [put, if_neg hother]
        rw [List.any_cons, Bool.or_eq_true] at h ⊢
        exact h.imp_right ih

def written (d : Disk) (target : List String) (content : Bytes) : Disk :=
  { d with files := put target content d.files }

theorem entry?_written_self (d : Disk) (target : List String) (content : Bytes) :
    entry? (d.written target content) target = some (.file content) := by
  simp only [ entry?, written, lookup_put_self]

/-- A write leaves directories what they are. -/
theorem entry?_written_directory (h : d.entry? place = some .directory) (hne : place ≠ target) :
    entry? (d.written target content) place = some .directory := by
  simp only [ entry?, written, lookup_put_of_ne hne] at h ⊢
  split at h
  · cases h
  · split at h
    · next habove =>
      refine if_pos ?_
      simp only [Bool.or_eq_true] at habove ⊢
      exact habove.imp_right any_put
    · cases h

/-- Where a path wants a file: at one that is there, or at a free name. -/
def Spot.Wants (target : List String) : Spot → Prop
  | .taken _ .directory => False
  | .taken place (.file _) => place = target
  | .free place => place = target

theorem entry?_of_walk {names : List String} {spot : Spot} (h : d.walk place names = .ok spot)
    (hspot : spot.Wants target) : d.entry? target ≠ some .directory := by
  fun_induction walk d place names with
  | case1 =>
      obtain rfl := Except.ok.inj h
      exact hspot.elim
  | case2 _ _ _ _ ih => exact ih h
  | case3 _ _ _ _ _ ih => exact ih h
  | case4 => cases h
  | case5 place name rest next _ _ _ hfree =>
      obtain rfl := Except.ok.inj h
      obtain rfl : next = target := hspot
      simp [hfree]
  | case6 => cases h
  | case7 _ _ _ _ _ _ _ _ ih => exact ih h
  | case8 place name rest next _ _ _ content hfile =>
      obtain rfl := Except.ok.inj h
      obtain rfl : next = target := hspot
      simp [hfile]
  | case9 => cases h

/-- After the write, the path leads to the new content: the directories on its way are still
there. -/
theorem walk_written {names : List String} {spot : Spot} (h : d.walk place names = .ok spot)
    (hspot : spot.Wants target) (content : Bytes) :
    (d.written target content).walk place names = .ok (.taken target (.file content)) := by
  have htarget := entry?_of_walk h hspot
  fun_induction walk d place names with
  | case1 =>
      obtain rfl := Except.ok.inj h
      exact hspot.elim
  | case2 _ _ _ hstay ih => rw [walk, if_pos hstay, ih h]
  | case3 _ _ _ hstay hup ih => rw [walk, if_neg hstay, if_pos hup, ih h]
  | case4 => cases h
  | case5 place name rest next hstay hup hlong _ hlast =>
      obtain rfl := Except.ok.inj h
      obtain rfl : next = target := hspot
      rw [walk, if_neg hstay, if_neg hup, if_neg hlong, entry?_written_self]
      exact if_pos hlast
  | case6 => cases h
  | case7 place name rest next hstay hup hlong hdirectory ih =>
      have hne : next ≠ target := fun heq => htarget (heq ▸ hdirectory)
      rw [walk, if_neg hstay, if_neg hup, if_neg hlong, entry?_written_directory hdirectory hne]
      exact ih h
  | case8 place name rest next hstay hup hlong old _ hlast =>
      obtain rfl := Except.ok.inj h
      obtain rfl : next = target := hspot
      rw [walk, if_neg hstay, if_neg hup, if_neg hlong, entry?_written_self]
      exact if_pos hlast
  | case9 => cases h

theorem exists_walk_of_destination {path : String} (h : d.destination path = .ok target) :
    ∃ found spot, names path = .ok found ∧ d.walk [] found = .ok spot ∧ spot.Wants target := by
  simp only [destination, bind_eq_ok] at h
  obtain ⟨found, hfound, h⟩ := h
  split at h
  · obtain ⟨_, -, h⟩ := bind_eq_ok.1 h
    obtain ⟨_, hthrow, -⟩ := bind_eq_ok.1 h
    cases hthrow
  · obtain ⟨spot, hwalk, h⟩ := bind_eq_ok.1 h
    refine ⟨found, spot, hfound, hwalk, ?_⟩
    split at h
    · cases h
    · exact Except.ok.inj h
    · exact Except.ok.inj h

/-- What was written can be read. -/
theorem read_of_write {d' : Disk} {path : String} (h : d.write path content = .ok d') :
    d'.read path = .ok content := by
  unfold write at h
  split at h
  · next place hplace =>
    obtain rfl := Except.ok.inj h
    obtain ⟨found, spot, hfound, hwalk, hspot⟩ := exists_walk_of_destination hplace
    have hfollow : (d.written place content).follow path = .ok (.taken place (.file content)) :=
      bind_eq_ok.2 ⟨found, hfound, walk_written hwalk hspot content⟩
    unfold read
    rw [← written, hfollow]
  · cases h

end Tortoise.Disk
