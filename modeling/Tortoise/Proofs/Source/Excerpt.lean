import Tortoise.Proofs.Text.Lines
import Tortoise.Source.Excerpt

/-!
# The lines of an excerpt

An excerpt is made of whole lines: each shown line of the source behind its number, and under the
marked one a line with the caret. No line of the source is broken up, so the mark stands in front of
one line only.
-/

namespace Tortoise.Excerpt

variable {width number column : Nat} {line : Text}

def gutter (width number : Nat) : Text := Text.padLeft width (Text.ofNat number) ++ " | "

def rowLines (width number : Nat) (isMarked : Bool) (column : Nat) (line : Text) : List Text :=
  if isMarked then
    ["> " ++ gutter width number ++ line,
      blanks (2 + (gutter width number).length) ++ padding line column ++ "^"]
  else ["  " ++ gutter width number ++ line]

theorem row_eq (width number : Nat) (isMarked : Bool) (column : Nat) (line : Text) :
    row width number isMarked column line =
      Text.ended '\n' (rowLines width number isMarked column line) := by
  have hbreak : Text.ofString "\n" = [.char '\n'] := rfl
  have hcaret : Text.ofString "^\n" = Text.ofString "^" ++ [.char '\n'] := rfl
  cases isMarked with
  | false => simp [row, rowLines, gutter, Text.ended, hbreak]
  | true => simp [row, rowLines, gutter, Text.ended, hbreak, hcaret]

theorem newline_not_mem_gutter (width number : Nat) : .char '\n' ∉ gutter width number := by
  intro h
  rcases List.mem_append.1 h with h | h
  · exact Text.newline_not_mem_padLeft width number h
  · exact absurd h (by decide)

theorem newline_not_mem_blanks (count : Nat) : .char '\n' ∉ blanks count := by
  intro h
  cases List.eq_of_mem_replicate h

theorem newline_not_mem_padding (line : Text) (column : Nat) :
    .char '\n' ∉ padding line column := by
  simp only [padding, List.mem_append, not_or, newline_not_mem_blanks, not_false_eq_true, and_true]
  intro h
  obtain ⟨r, -, hr⟩ := List.mem_map.1 h
  split at hr
  next htab =>
    subst hr
    exact absurd htab (by decide)
  next => cases hr

theorem newline_not_mem_rowLines (isMarked : Bool) (column : Nat) (h : .char '\n' ∉ line) :
    ∀ shown ∈ rowLines width number isMarked column line, .char '\n' ∉ shown := by
  have hmark : ∀ mark ∈ ["> ", "  ", "^"], .char '\n' ∉ Text.ofString mark := by decide
  have hgutter := newline_not_mem_gutter width number
  cases isMarked with
  | false =>
      refine List.forall_mem_singleton.2 ?_
      simp [h, hgutter, hmark "  "]
  | true =>
      refine List.forall_mem_cons.2 ⟨?_, List.forall_mem_singleton.2 ?_⟩
      · simp [h, hgutter, hmark "> "]
      · simp [newline_not_mem_blanks, newline_not_mem_padding, hmark "^"]

/-- A line without the carriage returns at its end has no other runes than before. -/
theorem newline_not_mem_withoutReturns (h : .char '\n' ∉ line) :
    .char '\n' ∉ withoutReturns line := by
  intro hmem
  have hsub := (List.dropWhile_sublist _).mem (List.mem_reverse.1 hmem)
  exact h (List.mem_reverse.1 hsub)

def window (lines : List Text) (number : Nat) : List (Text × Nat) :=
  ((lines.take (min (number + reach) lines.length)).drop (number - 1 - reach)).zipIdx
    (number - 1 - reach + 1)

def numberWidth (lines : List Text) (number : Nat) : Nat :=
  (Text.ofNat (min (number + reach) lines.length)).length

def rows (lines : List Text) (number column : Nat) : List Text :=
  (window lines number).flatMap fun shown =>
    rowLines (numberWidth lines number) shown.2 (shown.2 == number) column (withoutReturns shown.1)

theorem render_eq {source : Text} (column : Int) (hsource : source ≠ []) (hpos : 1 ≤ number)
    (hle : number ≤ (Text.splitOn '\n' source).length) :
    render source number column =
      Text.ended '\n' (rows (Text.splitOn '\n' source) number column.toNat) := by
  have hrange : (source.isEmpty || decide ((number : Int) ≤ 0)) = false := by
    simp only [Bool.or_eq_false_iff, List.isEmpty_eq_false_iff, decide_eq_false_iff_not]
    exact ⟨hsource, by omega⟩
  unfold render
  rw [hrange]
  simp only [Bool.false_eq_true, if_false, Int.toNat_natCast, if_neg (Nat.not_lt.2 hle), row_eq,
    Text.ended, rows, List.flatMap_assoc]
  rfl

theorem newline_not_mem_rows {lines : List Text} (number column : Nat)
    (h : ∀ line ∈ lines, .char '\n' ∉ line) :
    ∀ row ∈ rows lines number column, .char '\n' ∉ row := by
  intro row hrow
  obtain ⟨⟨text, n⟩, htext, hrow⟩ := List.mem_flatMap.1 hrow
  have hmem : text ∈ lines :=
    List.mem_of_mem_take (List.mem_of_mem_drop (List.fst_mem_of_mem_zipIdx htext))
  exact newline_not_mem_rowLines _ _ (newline_not_mem_withoutReturns (h text hmem)) row hrow

def marked (excerpt : Text) : List Text :=
  (Text.splitOn '\n' excerpt).filter fun line => line.head? == some (.char '>')

theorem filter_rowLines (isMarked : Bool) :
    (rowLines width number isMarked column line).filter
        (fun line => line.head? == some (.char '>')) =
      if isMarked then ["> " ++ gutter width number ++ line] else [] := by
  cases isMarked with
  | false => rfl
  | true =>
      have hcaret : (blanks (2 + (gutter width number).length) ++ padding line column ++
          Text.ofString "^").head? = some (.char ' ') := by
        rw [Nat.add_comm]
        rfl
      have hline : (Text.ofString "> " ++ gutter width number ++ line).head? = some (.char '>') :=
        rfl
      simp only [rowLines, if_true, List.filter_cons, hline, hcaret, List.filter_nil]
      rfl

/-- Of numbered members the one with a given number is picked out. -/
theorem flatMap_zipIdx_eq_singleton {α β : Type} {f : α × Nat → β} {xs : List α} {x : α}
    {k i : Nat} (hk : k ≤ i) (h : xs[i - k]? = some x) :
    ((xs.zipIdx k).flatMap fun y => if y.2 = i then [f y] else []) = [f (x, i)] := by
  induction xs generalizing k with
  | nil => cases h
  | cons y ys ih =>
      rw [List.zipIdx_cons, List.flatMap_cons]
      by_cases hi : k = i
      · subst hi
        rw [Nat.sub_self] at h
        obtain rfl := Option.some.inj h
        have hrest : ((ys.zipIdx (k + 1)).flatMap fun z =>
            if z.2 = k then [f z] else []) = [] := by
          refine List.flatMap_eq_nil_iff.2 fun z hz => if_neg ?_
          have hle := List.le_snd_of_mem_zipIdx hz
          omega
        rw [hrest, if_pos rfl, List.append_nil]
      · rw [show i - k = i - (k + 1) + 1 by omega, List.getElem?_cons_succ] at h
        rw [if_neg hi, List.nil_append]
        exact ih (by omega) h

/-- The mark stands in front of the line of the error and of no other line. -/
theorem marked_render {source : Text} {number : Nat} (column : Nat) (hsource : source ≠ [])
    (hpos : 1 ≤ number) (hline : (Text.splitOn '\n' source)[number - 1]? = some line) :
    ∃ width, marked (render source number column) =
      ["> " ++ gutter width number ++ withoutReturns line] := by
  have hlt : number - 1 < (Text.splitOn '\n' source).length :=
    (List.getElem?_eq_some_iff.1 hline).1
  let lines := Text.splitOn '\n' source
  let first := number - 1 - reach
  let shown := (lines.take (min (number + reach) lines.length)).drop first
  let width := numberWidth lines number
  have hget : shown[number - (first + 1)]? = some line := by
    have hpast : number - 1 < min (number + reach) lines.length := by
      simp only [lines, reach]
      omega
    have hindex : first + (number - (first + 1)) = number - 1 := by omega
    rw [List.getElem?_drop, List.getElem?_take, hindex, if_pos hpast]
    exact hline
  have hpick := @flatMap_zipIdx_eq_singleton Text Text (fun row =>
    "> " ++ gutter width row.2 ++ withoutReturns row.1) shown line (first + 1) number (by omega)
    hget
  have hwhole := newline_not_mem_rows number column
    fun text (htext : text ∈ lines) => Text.not_mem_of_mem_splitOn htext
  refine ⟨width, ?_⟩
  rw [marked, render_eq column hsource hpos (by omega), Int.toNat_natCast,
    Text.splitOn_ended hwhole, List.filter_append, rows, List.filter_flatMap]
  simp only [window, filter_rowLines, beq_iff_eq]
  exact congrArg (· ++ _) hpick

/-- An excerpt with a marked line is not empty. -/
theorem ne_nil_of_marked {excerpt shown : Text} {rest : List Text}
    (h : marked excerpt = shown :: rest) : excerpt ≠ [] := by
  rintro rfl
  cases h

end Tortoise.Excerpt
