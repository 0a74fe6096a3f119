import Tortoise.Text.Number
import Tortoise.Text.Rune

/-!
# Cutting a text at a character

A text is cut into pieces without the character. The last piece of one text and the first piece of
the text behind it become one, and lines that end in the character are its pieces.
-/

namespace Tortoise.Text

variable {c : Char} {r : Rune} {t u piece last first : Text} {pieces more : List Text}

theorem splitOn_cons_self (c : Char) (t : Text) :
    splitOn c (.char c :: t) = [] :: splitOn c t :=
  if_pos (beq_self_eq_true _)

theorem splitOn_cons_of_ne (hr : r ≠ .char c) (ht : splitOn c t = first :: more) :
    splitOn c (r :: t) = (r :: first) :: more := by
  have hskip : r.is c = false := beq_eq_false_iff_ne.2 hr
  simp [splitOn, hskip, ht]

theorem exists_splitOn_cons (c : Char) (t : Text) :
    ∃ first more, splitOn c t = first :: more := by
  induction t with
  | nil => exact ⟨[], [], rfl⟩
  | cons r t ih =>
      by_cases hr : r = .char c
      · exact ⟨[], _, hr ▸ splitOn_cons_self c t⟩
      · obtain ⟨first, more, ht⟩ := ih
        exact ⟨r :: first, more, splitOn_cons_of_ne hr ht⟩

theorem exists_splitOn_concat (c : Char) (t : Text) :
    ∃ pieces last, splitOn c t = pieces ++ [last] := by
  obtain ⟨first, more, ht⟩ := exists_splitOn_cons c t
  rw [ht]
  exact ⟨_, _, (List.dropLast_concat_getLast (List.cons_ne_nil first more)).symm⟩

/-- The pieces of two texts one behind the other. -/
theorem splitOn_append (ht : splitOn c t = pieces ++ [last]) (hu : splitOn c u = first :: more) :
    splitOn c (t ++ u) = pieces ++ (last ++ first) :: more := by
  induction t generalizing pieces last with
  | nil =>
      cases pieces with
      | nil =>
          obtain ⟨rfl, -⟩ := List.cons.inj ht
          exact hu
      | cons piece pieces =>
          obtain ⟨-, hnil⟩ := List.cons.inj ht
          simp at hnil
  | cons r t ih =>
      by_cases hr : r = .char c
      · rw [hr, splitOn_cons_self] at ht
        rw [hr, List.cons_append, splitOn_cons_self]
        cases pieces with
        | nil =>
            obtain ⟨_, _, hcons⟩ := exists_splitOn_cons c t
            simp [hcons] at ht
        | cons piece pieces =>
            obtain ⟨rfl, hrest⟩ := List.cons.inj ht
            rw [ih hrest, List.cons_append]
      · obtain ⟨piece, rest, hcons⟩ := exists_splitOn_cons c t
        rw [splitOn_cons_of_ne hr hcons] at ht
        cases pieces with
        | nil =>
            obtain ⟨rfl, rfl⟩ := List.cons.inj ht
            exact splitOn_cons_of_ne hr (@ih _ [] hcons)
        | cons front pieces =>
            obtain ⟨rfl, rfl⟩ := List.cons.inj ht
            exact splitOn_cons_of_ne hr (@ih _ (piece :: pieces) hcons)

theorem not_mem_of_mem_splitOn (h : piece ∈ splitOn c t) : .char c ∉ piece := by
  induction t generalizing piece with
  | nil =>
      obtain rfl := List.mem_singleton.1 h
      exact List.not_mem_nil
  | cons r t ih =>
      by_cases hr : r = .char c
      · rw [hr, splitOn_cons_self] at h
        rcases List.mem_cons.1 h with rfl | h
        · exact List.not_mem_nil
        · exact ih h
      · obtain ⟨first, more, ht⟩ := exists_splitOn_cons c t
        rw [splitOn_cons_of_ne hr ht] at h
        rw [ht] at ih
        rcases List.mem_cons.1 h with rfl | h
        · exact List.not_mem_cons_of_ne_of_not_mem (Ne.symm hr) (ih List.mem_cons_self)
        · exact ih (List.mem_cons_of_mem _ h)

theorem splitOn_of_not_mem (h : .char c ∉ t) : splitOn c t = [t] := by
  induction t with
  | nil => rfl
  | cons r t ih =>
      have hr : Rune.char c ≠ r := List.ne_of_not_mem_cons h
      exact splitOn_cons_of_ne hr.symm (ih (List.not_mem_of_not_mem_cons h))

def ended (c : Char) (lines : List Text) : Text := lines.flatMap (· ++ [.char c])

/-- Ended lines are cut into themselves and the nothing behind the last of them. -/
theorem splitOn_ended {lines : List Text} (h : ∀ line ∈ lines, .char c ∉ line) :
    splitOn c (ended c lines) = lines ++ [[]] := by
  induction lines with
  | nil => rfl
  | cons line lines ih =>
      obtain ⟨hline, hlines⟩ := List.forall_mem_cons.1 h
      have hrest := ih hlines
      have hfirst : splitOn c line = [] ++ [line] := splitOn_of_not_mem hline
      have hbehind : splitOn c (.char c :: ended c lines) = [] :: (lines ++ [[]]) := by
        rw [splitOn_cons_self, hrest]
      have hall := splitOn_append hfirst hbehind
      rw [List.append_nil, List.nil_append] at hall
      change splitOn c (line ++ [.char c] ++ ended c lines) = _
      rw [List.append_assoc]
      exact hall

/-- A number with blanks in front of it stands in one line. -/
theorem newline_not_mem_padLeft (width n : Nat) :
    .char '\n' ∉ ofString (padLeft width (ofNat n)) := by
  intro h
  simp only [padLeft, ofString, ofNat, String.toList_append, String.toList_ofList,
    List.map_append, List.mem_append, List.mem_map, Rune.char.injEq] at h
  obtain ⟨c, hc, rfl⟩ | ⟨c, hc, rfl⟩ := h
  · cases List.eq_of_mem_replicate hc
  · exact absurd (Nat.isDigit_of_mem_toDigits (by decide) (by decide) hc) (by decide)

end Tortoise.Text
