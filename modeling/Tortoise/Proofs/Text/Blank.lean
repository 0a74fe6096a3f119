import Tortoise.Text.Class

/-!
# Blanks at the ends of a text

`trim` takes a text apart into leading blanks, a core and trailing blanks. A core that neither
starts nor ends with a blank is found again whatever blanks stand around it.
-/

namespace Tortoise.Text

def Blank (t : Text) : Prop := ∀ r ∈ t, r.isBlank = true

theorem blank_nil : Blank [] := fun _ hr => nomatch hr

theorem blank_cons {r : Rune} {t : Text} : Blank (r :: t) ↔ r.isBlank = true ∧ Blank t := by
  simp [Blank]

theorem Blank.append {s t : Text} (hs : Blank s) (ht : Blank t) : Blank (s ++ t) := by
  intro r hr
  rcases List.mem_append.1 hr with h | h
  · exact hs r h
  · exact ht r h

theorem Blank.reverse {t : Text} (ht : Blank t) : Blank t.reverse :=
  fun r hr => ht r (List.mem_reverse.1 hr)

theorem blank_takeWhile (t : Text) : Blank (t.takeWhile Rune.isBlank) :=
  fun _ hr => List.all_eq_true.1 List.all_takeWhile _ hr

theorem dropWhile_eq_nil_of_blank {t : Text} (ht : Blank t) : t.dropWhile Rune.isBlank = [] := by
  have hdrop : (t ++ []).dropWhile Rune.isBlank = [].dropWhile Rune.isBlank :=
    List.dropWhile_append_of_pos ht
  rwa [List.append_nil] at hdrop

theorem dropWhile_eq_self {r : Rune} {t : Text} (hr : r.isBlank = false) :
    (r :: t).dropWhile Rune.isBlank = r :: t :=
  List.dropWhile_cons_of_neg (by simp [hr])

/-- Trimming takes only blanks away. -/
theorem exists_trim_eq (t : Text) :
    ∃ before after, Blank before ∧ Blank after ∧ t = before ++ t.trim ++ after := by
  let front := t.takeWhile Rune.isBlank
  let rest := t.dropWhile Rune.isBlank
  let back := rest.reverse.takeWhile Rune.isBlank
  have hfront : t = front ++ rest := List.takeWhile_append_dropWhile.symm
  have hback : rest = t.trim ++ back.reverse := by
    have h : rest.reverse = back ++ rest.reverse.dropWhile Rune.isBlank :=
      List.takeWhile_append_dropWhile.symm
    have hr := congrArg List.reverse h
    rw [List.reverse_reverse, List.reverse_append] at hr
    exact hr
  refine ⟨front, back.reverse, blank_takeWhile t, (blank_takeWhile rest.reverse).reverse, ?_⟩
  rw [List.append_assoc, ← hback, ← hfront]

structure Tight (t : Text) : Prop where
  head : ∃ r rest, t = r :: rest ∧ r.isBlank = false
  last : ∃ rest r, t = rest ++ [r] ∧ r.isBlank = false

theorem Tight.ne_nil {t : Text} (ht : Tight t) : t ≠ [] := by
  obtain ⟨r, rest, rfl, _⟩ := ht.head
  simp

theorem Tight.reverse {t : Text} (ht : Tight t) : Tight t.reverse := by
  obtain ⟨r, rest, hhead, hr⟩ := ht.head
  obtain ⟨rest', r', hlast, hr'⟩ := ht.last
  exact ⟨⟨r', rest'.reverse, by simp [hlast], hr'⟩, ⟨rest.reverse, r, by simp [hhead], hr⟩⟩

/-- What starts like a tight text and ends like a tight text is tight. -/
theorem Tight.join {s t : Text} (mid : Text) (hs : Tight s) (ht : Tight t) :
    Tight (s ++ mid ++ t) := by
  obtain ⟨r, rest, rfl, hr⟩ := hs.head
  obtain ⟨rest', r', rfl, hr'⟩ := ht.last
  exact ⟨⟨r, rest ++ mid ++ (rest' ++ [r']), by simp, hr⟩,
    ⟨r :: rest ++ mid ++ rest', r', by simp, hr'⟩⟩

theorem tight_of_forall {t : Text} (hne : t ≠ []) (ht : ∀ r ∈ t, r.isBlank = false) :
    Tight t := by
  refine ⟨?_, ?_⟩
  · cases t with
    | nil => exact absurd rfl hne
    | cons r rest => exact ⟨r, rest, rfl, ht r (by simp)⟩
  · have hlast := (List.dropLast_concat_getLast hne).symm
    exact ⟨t.dropLast, t.getLast hne, hlast, ht _ (List.getLast_mem hne)⟩

theorem dropWhile_tight {before core : Text} (rest : Text) (hb : Blank before)
    (hcore : Tight core) :
    (before ++ core ++ rest).dropWhile Rune.isBlank = core ++ rest := by
  obtain ⟨r, tail, rfl, hr⟩ := hcore.head
  rw [List.append_assoc, List.dropWhile_append_of_pos hb]
  exact dropWhile_eq_self hr

theorem trim_of_blank {t : Text} (ht : Blank t) : t.trim = [] := by
  simp [trim, dropWhile_eq_nil_of_blank ht]

theorem blank_of_trim_eq_nil {t : Text} (h : t.trim = []) : Blank t := by
  obtain ⟨before, after, hb, ha, ht⟩ := exists_trim_eq t
  rw [h, List.append_nil] at ht
  rw [ht]
  exact hb.append ha

/-- A tight core is what trimming leaves of it, whatever blanks stand around it. -/
theorem trim_pad {before core after : Text} (hb : Blank before) (ha : Blank after)
    (hcore : Tight core) : trim (before ++ core ++ after) = core := by
  have hback : (core ++ after).reverse = after.reverse ++ core.reverse ++ [] := by simp
  rw [trim, dropWhile_tight after hb hcore, hback, dropWhile_tight [] ha.reverse hcore.reverse]
  simp

theorem isBlank_eq_false_of_dropWhile {t rest : Text} {r : Rune}
    (h : t.dropWhile Rune.isBlank = r :: rest) : r.isBlank = false := by
  have hhead := List.head?_dropWhile_not Rune.isBlank t
  rw [h] at hhead
  simpa using hhead

theorem trim_eq_nil_or_tight (t : Text) : t.trim = [] ∨ Tight t.trim := by
  have hback := List.takeWhile_append_dropWhile (p := Rune.isBlank)
    (l := (t.dropWhile Rune.isBlank).reverse)
  cases hrest : (t.dropWhile Rune.isBlank).reverse.dropWhile Rune.isBlank with
  | nil => exact .inl (by rw [trim, hrest, List.reverse_nil])
  | cons s rest =>
      have htrim : t.trim = rest.reverse ++ [s] := by rw [trim, hrest, List.reverse_cons]
      refine .inr ⟨?_, rest.reverse, s, htrim, isBlank_eq_false_of_dropWhile hrest⟩
      -- The front is untouched by dropping at the back.
      obtain ⟨r, front, hfront⟩ := List.exists_cons_of_ne_nil
        (show t.trim ≠ [] by simp [htrim])
      refine ⟨r, front, hfront, ?_⟩
      rw [hrest] at hback
      have hdrop := congrArg List.reverse hback
      rw [List.reverse_append, List.reverse_reverse, List.reverse_cons, ← htrim, hfront] at hdrop
      exact isBlank_eq_false_of_dropWhile hdrop.symm

theorem trim_trim (t : Text) : t.trim.trim = t.trim := by
  rcases trim_eq_nil_or_tight t with h | h
  · rw [h]
    rfl
  · simpa using trim_pad blank_nil blank_nil h

theorem length_trim_le (t : Text) : t.trim.length ≤ t.length := by
  obtain ⟨before, after, _, _, ht⟩ := exists_trim_eq t
  have hlen := congrArg List.length ht
  simp only [List.length_append] at hlen
  omega

end Tortoise.Text
