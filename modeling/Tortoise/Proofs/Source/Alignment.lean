import Mathlib.Data.List.Forall2
import Mathlib.Data.List.GetD
import Mathlib.Data.List.Intervals
import Mathlib.Data.List.TakeWhile
import Tortoise.Proofs.Source.Excerpt

/-!
# What an excerpt shows

An excerpt shows lines of the source as they stand, less the carriage returns at their ends, behind
gutters of one width. The line with the caret has a rune in front of the caret for every rune of the
marked line before the column, and a tab for every tab, so the caret stands under its rune.
-/

namespace Tortoise

structure Text.IsLines (t : Text) (lines : List Text) : Prop where
  ne_nil : lines ≠ []
  unbroken : ∀ line ∈ lines, .char '\n' ∉ line
  joined : [.char '\n'].intercalate lines = t

theorem Text.intercalate_splitOn (c : Char) (t : Text) :
    [.char c].intercalate (splitOn c t) = t := by
  induction t with
  | nil => rfl
  | cons r t ih =>
      obtain ⟨first, more, ht⟩ := exists_splitOn_cons c t
      by_cases hr : r = .char c
      · rw [hr, splitOn_cons_self, ht, List.intercalate_cons_cons, ← ht, ih]
        rfl
      · rw [splitOn_cons_of_ne hr ht]
        rw [ht] at ih
        rw [← ih]
        cases more with
        | nil => rfl
        | cons second more => rw [List.intercalate_cons_cons, List.intercalate_cons_cons]; rfl

theorem Text.isLines_splitOn (t : Text) : t.IsLines (splitOn '\n' t) where
  ne_nil := by
    obtain ⟨first, more, ht⟩ := exists_splitOn_cons '\n' t
    rw [ht]
    exact List.cons_ne_nil first more
  unbroken _ h := not_mem_of_mem_splitOn h
  joined := intercalate_splitOn '\n' t

namespace Excerpt

variable {lines : List Text} {line shown : Text} {width number : Nat}

structure Stripped (line shown : Text) : Prop where
  returns : ∃ count, line = shown ++ List.replicate count (.char '\r')
  all : shown.getLast? ≠ some (.char '\r')

theorem stripped_withoutReturns (line : Text) : Stripped line (withoutReturns line) where
  returns := by
    refine ⟨(line.reverse.takeWhile (·.is '\r')).length, ?_⟩
    have hreturns : (line.reverse.takeWhile (·.is '\r')).reverse =
        List.replicate (line.reverse.takeWhile (·.is '\r')).length (.char '\r') := by
      apply List.eq_replicate_iff.2
      constructor
      · exact List.length_reverse
      · intro r hr
        have hreturn := List.mem_takeWhile_imp (List.mem_reverse.1 hr)
        exact beq_iff_eq.1 hreturn
    rw [← hreturns, withoutReturns, ← List.reverse_append, List.takeWhile_append_dropWhile,
      List.reverse_reverse]
  all := by
    intro h
    rw [withoutReturns, List.getLast?_reverse] at h
    have hnot := List.head?_dropWhile_not (·.is '\r') line.reverse
    rw [h] at hnot
    exact absurd hnot (by decide)

def Shows (lines : List Text) (number : Nat) (shown : Text) : Prop :=
  ∃ line, lines[number - 1]? = some line ∧ Stripped line shown

def shownLine (lines : List Text) (number : Nat) : Text :=
  withoutReturns (lines.getD (number - 1) [])

theorem shows_shownLine (hpos : 1 ≤ number) (hle : number ≤ lines.length) :
    Shows lines number (shownLine lines number) := by
  have hlt : number - 1 < lines.length := by omega
  refine ⟨lines[number - 1], List.getElem?_eq_getElem hlt, ?_⟩
  rw [shownLine, List.getD_eq_getElem _ _ hlt]
  exact stripped_withoutReturns _

/-- A line of an excerpt: a mark, a number right-aligned in `width` columns, and the shown line. -/
def Labelled (mark : Char) (width number : Nat) (shown row : Text) : Prop :=
  ∃ pad, pad + (Text.ofNat number).length = width ∧
    row = [.char mark, .char ' '] ++ blanks pad ++ Text.ofString (Text.ofNat number) ++
      Text.ofString " | " ++ shown

theorem ofString_padLeft (width : Nat) (s : String) :
    Text.ofString (Text.padLeft width s) = blanks (width - s.length) ++ Text.ofString s := by
  simp [Text.padLeft, Text.ofString, blanks]

theorem length_gutter (h : (Text.ofNat number).length ≤ width) :
    (gutter width number).length = width + 3 := by
  have hbar : (Text.ofString " | ").length = 3 := rfl
  have hdigits : (Text.ofString (Text.ofNat number)).length = (Text.ofNat number).length := by
    rw [Text.ofString, List.length_map, String.length_toList]
  rw [gutter, List.length_append, ofString_padLeft, List.length_append, hbar, hdigits, blanks,
    List.length_replicate]
  omega

theorem labelled_gutter (mark : Char) (shown : Text) (h : (Text.ofNat number).length ≤ width) :
    Labelled mark width number shown
      ([.char mark, .char ' '] ++ gutter width number ++ shown) := by
  refine ⟨width - (Text.ofNat number).length, Nat.sub_add_cancel h, ?_⟩
  simp only [gutter, ofString_padLeft, List.append_assoc]

/-- A smaller number has no more digits. -/
theorem length_ofNat_le {m n : Nat} (h : m ≤ n) :
    (Text.ofNat m).length ≤ (Text.ofNat n).length := by
  have hlength : ∀ k, (Text.ofNat k).length = (Nat.toDigits 10 k).length := fun k =>
    String.length_ofList
  rw [hlength, hlength]
  have hdigits : 0 < (Nat.toDigits 10 n).length := Nat.length_toDigits_pos
  have hn := (Nat.length_toDigits_le_iff (by omega) hdigits).1 (Nat.le_refl _)
  exact (Nat.length_toDigits_le_iff (by omega) hdigits).2 (Nat.lt_of_le_of_lt h hn)

/-- The caret stands behind `indent` blanks and one rune for each rune of the shown line in front of
the column, a tab for a tab and else a blank. -/
def Points (indent : Nat) (column : Int) (shown pointer : Text) : Prop :=
  ∃ pad : Text, (pad.length : Int) = max 0 (column - 1) ∧
    (∀ i < pad.length, pad[i]? =
      some (if shown[i]? = some (.char '\t') then .char '\t' else .char ' ')) ∧
    pointer = blanks indent ++ pad ++ [.char '^']

theorem length_padding (line : Text) (column : Nat) :
    (padding line column).length = column - 1 := by
  simp only [padding, blanks, List.length_append, List.length_map, List.length_take,
    List.length_replicate]
  omega

theorem getElem?_padding {i column : Nat} (shown : Text) (h : i < column - 1) :
    (padding shown column)[i]? =
      some (if shown[i]? = some (.char '\t') then .char '\t' else .char ' ') := by
  by_cases hi : i < shown.length
  · have htaken : i < (shown.take (column - 1)).length := by
      rw [List.length_take]
      omega
    rw [padding, List.getElem?_append_left (by rwa [List.length_map]), List.getElem?_map,
      List.getElem?_take_of_lt h, List.getElem?_eq_getElem hi, Option.map_some]
    by_cases htab : shown[i] = .char '\t'
    · simp [htab, Rune.is]
    · simp [htab, Rune.is]
  · -- the line ends before the column
    have htaken : (shown.take (column - 1)).length ≤ i := by
      rw [List.length_take]
      omega
    rw [padding, List.getElem?_append_right (by rwa [List.length_map]), blanks,
      List.getElem?_replicate_of_lt (by simp only [List.length_map, List.length_take] at *; omega),
      List.getElem?_eq_none (Nat.le_of_not_lt hi)]
    simp

theorem points_padding (indent : Nat) (column : Int) (shown : Text) :
    Points indent column shown (blanks indent ++ padding shown column.toNat ++ "^") := by
  refine ⟨padding shown column.toNat, ?_, ?_, rfl⟩
  · rw [length_padding]
    omega
  · intro i hi
    rw [length_padding] at hi
    exact getElem?_padding shown hi

def Unmarked (lines : List Text) (width number : Nat) (row : Text) : Prop :=
  ∃ shown, Shows lines number shown ∧ Labelled ' ' width number shown row

/-- What stands around a place of a source: the lines up to two before it, its own line with the
mark, the line with the caret, and the lines up to two behind it. -/
structure Frame (lines : List Text) (number : Nat) (column : Int) where
  /-- The columns of the numbers. -/
  width : Nat
  shown : Text
  before : List Text
  marked : Text
  pointer : Text
  after : List Text
  width_eq : width = (Text.ofNat (min lines.length (number + 2))).length
  unmarked_before :
    List.Forall₂ (Unmarked lines width) (List.Ico (max 1 (number - 2)) number) before
  shows_marked : Shows lines number shown
  labelled_marked : Labelled '>' width number shown marked
  points_pointer : Points (width + 5) column shown pointer
  unmarked_after : List.Forall₂ (Unmarked lines width)
    (List.Ico (number + 1) (min lines.length (number + 2) + 1)) after

def Frame.rows {column : Int} (frame : Frame lines number column) : List Text :=
  frame.before ++ frame.marked :: frame.pointer :: frame.after

def plainRow (lines : List Text) (width number : Nat) : Text :=
  "  " ++ gutter width number ++ shownLine lines number

theorem unmarked_plainRow (hpos : 1 ≤ number) (hle : number ≤ lines.length)
    (hwidth : (Text.ofNat number).length ≤ width) :
    Unmarked lines width number (plainRow lines width number) :=
  ⟨shownLine lines number, shows_shownLine hpos hle, labelled_gutter ' ' _ hwidth⟩

/-- The window numbers its lines from the first shown to the last. -/
theorem window_eq (hpos : 1 ≤ number) (hle : number ≤ lines.length) :
    window lines number =
      (List.Ico (max 1 (number - 2)) (min lines.length (number + 2) + 1)).map
        fun n => (lines.getD (n - 1) [], n) := by
  apply List.ext_getElem
  · simp only [window, reach, List.length_zipIdx, List.length_drop, List.length_take,
      List.length_map, List.Ico.length]
    omega
  · intro i hi _
    simp only [window, reach, List.length_zipIdx, List.length_drop, List.length_take] at hi
    have hindex : number - 1 - reach + i = max 1 (number - 2) + i - 1 := by
      simp only [reach]
      omega
    have hlt : max 1 (number - 2) + i - 1 < lines.length := by omega
    have hnumber : number - 1 - reach + 1 + i = max 1 (number - 2) + i := by omega
    simp only [window, List.getElem_zipIdx, List.getElem_drop, List.getElem_take, List.getElem_map,
      List.Ico, List.getElem_range', hindex, hnumber, Nat.one_mul, List.getD_eq_getElem _ _ hlt]

theorem flatMap_rowLines_of_ne {ns : List Nat} (column : Nat) (h : ∀ n ∈ ns, n ≠ number) :
    (ns.flatMap fun n => rowLines width n (n == number) column (shownLine lines n)) =
      ns.map (plainRow lines width) := by
  induction ns with
  | nil => rfl
  | cons n ns ih =>
      obtain ⟨hn, hns⟩ := List.forall_mem_cons.1 h
      rw [List.flatMap_cons, ih hns, beq_eq_false_iff_ne.2 hn]
      rfl

theorem rows_eq (column : Nat) (hpos : 1 ≤ number) (hle : number ≤ lines.length) :
    rows lines number column =
      (List.Ico (max 1 (number - 2)) number).map (plainRow lines (numberWidth lines number)) ++
        (rowLines (numberWidth lines number) number true column (shownLine lines number) ++
          (List.Ico (number + 1) (min lines.length (number + 2) + 1)).map
            (plainRow lines (numberWidth lines number))) := by
  have hfront : ∀ n ∈ List.Ico (max 1 (number - 2)) number, n ≠ number := by
    intro n hn
    exact Nat.ne_of_lt (List.Ico.mem.1 hn).2
  have hback : ∀ n ∈ List.Ico (number + 1) (min lines.length (number + 2) + 1), n ≠ number := by
    intro n hn
    exact Nat.ne_of_gt (List.Ico.mem.1 hn).1
  rw [rows, window_eq hpos hle, List.flatMap_map,
    ← List.Ico.append_consecutive (show max 1 (number - 2) ≤ number by omega)
      (show number ≤ min lines.length (number + 2) + 1 by omega),
    List.Ico.eq_cons (show number < min lines.length (number + 2) + 1 by omega),
    List.flatMap_append, List.flatMap_cons, beq_self_eq_true]
  exact congrArg₂ _ (flatMap_rowLines_of_ne column hfront)
    (congrArg _ (flatMap_rowLines_of_ne column hback))

theorem numberWidth_eq (lines : List Text) (number : Nat) :
    numberWidth lines number = (Text.ofNat (min lines.length (number + 2))).length := by
  rw [numberWidth, Nat.min_comm, reach]

theorem length_ofNat_le_numberWidth (hle : number ≤ lines.length) :
    (Text.ofNat number).length ≤ numberWidth lines number := by
  rw [numberWidth_eq]
  exact length_ofNat_le (by omega)

theorem forall₂_unmarked {ns : List Nat}
    (h : ∀ n ∈ ns, 1 ≤ n ∧ n ≤ min lines.length (number + 2)) :
    List.Forall₂ (Unmarked lines (numberWidth lines number)) ns
      (ns.map (plainRow lines (numberWidth lines number))) := by
  rw [List.forall₂_map_right_iff, List.forall₂_same]
  intro n hn
  obtain ⟨hpos, hlast⟩ := h n hn
  apply unmarked_plainRow hpos (by omega)
  rw [numberWidth_eq]
  exact length_ofNat_le hlast

theorem forall₂_unmarked_before (hle : number ≤ lines.length) :
    List.Forall₂ (Unmarked lines (numberWidth lines number))
      (List.Ico (max 1 (number - 2)) number)
      ((List.Ico (max 1 (number - 2)) number).map (plainRow lines (numberWidth lines number))) := by
  apply forall₂_unmarked
  intro n hn
  have hn := List.Ico.mem.1 hn
  omega

theorem forall₂_unmarked_after (lines : List Text) (number : Nat) :
    List.Forall₂ (Unmarked lines (numberWidth lines number))
      (List.Ico (number + 1) (min lines.length (number + 2) + 1))
      ((List.Ico (number + 1) (min lines.length (number + 2) + 1)).map
        (plainRow lines (numberWidth lines number))) := by
  apply forall₂_unmarked
  intro n hn
  have hn := List.Ico.mem.1 hn
  omega

def frame (column : Int) (hpos : 1 ≤ number) (hle : number ≤ lines.length) :
    Frame lines number column where
  width := numberWidth lines number
  shown := shownLine lines number
  before := (List.Ico (max 1 (number - 2)) number).map (plainRow lines (numberWidth lines number))
  marked := "> " ++ gutter (numberWidth lines number) number ++ shownLine lines number
  pointer := blanks (numberWidth lines number + 5) ++
    padding (shownLine lines number) column.toNat ++ "^"
  after := (List.Ico (number + 1) (min lines.length (number + 2) + 1)).map
    (plainRow lines (numberWidth lines number))
  width_eq := numberWidth_eq lines number
  unmarked_before := forall₂_unmarked_before hle
  shows_marked := shows_shownLine hpos hle
  labelled_marked := labelled_gutter '>' _ (length_ofNat_le_numberWidth hle)
  points_pointer := points_padding _ column _
  unmarked_after := forall₂_unmarked_after lines number

theorem rows_eq_frame (column : Int) (hpos : 1 ≤ number) (hle : number ≤ lines.length) :
    rows lines number column.toNat = (frame column hpos hle).rows := by
  have hindent : 2 + (gutter (numberWidth lines number) number).length =
      numberWidth lines number + 5 := by
    rw [length_gutter (length_ofNat_le_numberWidth hle)]
    omega
  rw [rows_eq column.toNat hpos hle, rowLines, if_pos rfl, hindent]
  rfl

/-- The excerpt of a place in a source is its frame, and a place outside has none. -/
theorem render_shows_frame_of_place (source : Text) (line column : Int) :
    ∃ lines, source.IsLines lines ∧
      (source ≠ [] → 1 ≤ line → line ≤ lines.length →
        ∃ frame : Frame lines line.toNat column,
          render source line column = Text.ended '\n' frame.rows ∧
          ∀ row ∈ frame.rows, .char '\n' ∉ row) ∧
      (source = [] ∨ line < 1 ∨ lines.length < line → render source line column = []) := by
  refine ⟨Text.splitOn '\n' source, Text.isLines_splitOn source, ?_, ?_⟩
  · intro hsource hpos hle
    obtain ⟨number, rfl⟩ := Int.eq_ofNat_of_zero_le (show 0 ≤ line by omega)
    have hpos : 1 ≤ number := by omega
    have hle : number ≤ (Text.splitOn '\n' source).length := by omega
    refine ⟨frame column hpos hle, ?_, ?_⟩
    · rw [render_eq column hsource hpos hle, rows_eq_frame column hpos hle]
    · rw [← rows_eq_frame]
      exact newline_not_mem_rows number column.toNat (Text.isLines_splitOn source).unbroken
  · rintro (rfl | hlow | hhigh)
    · rfl
    · have hout : (source.isEmpty || decide (line ≤ 0)) = true := by
        rw [decide_eq_true (by omega), Bool.or_true]
      rw [render, if_pos hout]
    · unfold render
      split
      · rfl
      · exact if_pos (by omega)

-- the carriage return is gone, and the caret stands behind a tab and past the end of the line
example : render (Text.ofString "a\n\tb\r\nc") 2 5 =
    Text.ofString "  1 | a\n> 2 | \tb\n      \t   ^\n  3 | c\n" := by decide

end Excerpt

end Tortoise
