import Tortoise.Text.Class

/-!
# How the classes of runes lie to each other

Blanks are neither letters nor digits, and every uppercase letter is a letter. Inclusion of two
sets of code points is settled by a finite check of their runs.
-/

namespace Tortoise

namespace Text

def CodeRun.holds (r run : CodeRun) : Bool :=
  Nat.ble r.first run.first && Nat.ble run.last r.last && Nat.beq r.step 1

/-- Whether the run that decides about the first code point of `run` holds all of it. -/
def CodeRuns.covers (runs : CodeRuns) (run : CodeRun) : Bool :=
  (runs.find? fun r => Nat.ble run.first r.last).any fun r => r.holds run

theorem CodeRuns.contains_of_covers {runs : CodeRuns} {run : CodeRun} {n : Nat}
    (hcovers : runs.covers run = true) (hn : run.contains n = true) :
    runs.contains n = true := by
  simp only [CodeRun.contains, Bool.and_eq_true, decide_eq_true_eq] at hn
  induction runs with
  | nil => simp [CodeRuns.covers] at hcovers
  | cons r rest ih =>
      by_cases hfirst : run.first ≤ r.last
      · have hdecides : Nat.ble run.first r.last = true := Nat.ble_eq_true_of_le hfirst
        simp only [CodeRuns.covers, List.find?_cons, hdecides, Option.any_some, CodeRun.holds,
          Bool.and_eq_true, Nat.ble_eq, Nat.beq_eq] at hcovers
        obtain ⟨⟨hlow, hhigh⟩, hstep⟩ := hcovers
        have hlast : n ≤ r.last := by omega
        have hmod : (n - r.first) % r.step = 0 := by rw [hstep, Nat.mod_one]
        simp only [CodeRuns.contains, if_pos hlast, CodeRun.contains, Bool.and_eq_true,
          decide_eq_true_eq, beq_iff_eq]
        exact ⟨⟨by omega, hlast⟩, hmod⟩
      · have hskip : ¬ n ≤ r.last := by omega
        have hpass : Nat.ble run.first r.last = false := by
          simpa [← Bool.not_eq_true, Nat.ble_eq] using hfirst
        simp only [CodeRuns.covers, List.find?_cons, hpass] at hcovers
        simp only [CodeRuns.contains, if_neg hskip]
        exact ih hcovers

theorem CodeRuns.exists_run {runs : CodeRuns} {n : Nat} (h : runs.contains n = true) :
    ∃ run ∈ runs, run.contains n = true := by
  induction runs with
  | nil => simp [CodeRuns.contains] at h
  | cons r rest ih =>
      simp only [CodeRuns.contains] at h
      split at h
      · exact ⟨r, by simp, h⟩
      · obtain ⟨run, hmem, hrun⟩ := ih h
        exact ⟨run, by simp [hmem], hrun⟩

def CodeRun.members (run : CodeRun) : List Nat :=
  (List.range ((run.last - run.first) / run.step + 1)).map (run.first + run.step * ·)

theorem CodeRun.mem_members {run : CodeRun} {n : Nat} (h : run.contains n = true) :
    n ∈ run.members := by
  simp only [CodeRun.contains, Bool.and_eq_true, decide_eq_true_eq, beq_iff_eq] at h
  obtain ⟨⟨hfirst, hlast⟩, hstep⟩ := h
  have hle : (n - run.first) / run.step ≤ (run.last - run.first) / run.step :=
    Nat.div_le_div_right (by omega)
  refine List.mem_map.2 ⟨(n - run.first) / run.step, List.mem_range.2 (by omega), ?_⟩
  rw [Nat.mul_div_cancel' (Nat.dvd_of_mod_eq_zero hstep)]
  omega

-- Only runs that straddle a gap between letters need their members looked at.
theorem letterRuns_hold_upperRuns : (upperRuns.all fun run =>
    letterRuns.covers run || run.members.all letterRuns.contains) = true := by
  decide +kernel

theorem letterRuns_contains_of_upperRuns {n : Nat} (h : upperRuns.contains n = true) :
    letterRuns.contains n = true := by
  obtain ⟨run, hmem, hrun⟩ := CodeRuns.exists_run h
  have hall := List.all_eq_true.1 letterRuns_hold_upperRuns run hmem
  rcases Bool.or_eq_true_iff.1 hall with hcovers | hmembers
  · exact CodeRuns.contains_of_covers hcovers hrun
  · exact List.all_eq_true.1 hmembers n (CodeRun.mem_members hrun)

def blankCodes : List Nat := blankRuns.flatMap CodeRun.members

theorem mem_blankCodes {n : Nat} (h : blankRuns.contains n = true) : n ∈ blankCodes := by
  obtain ⟨run, hmem, hrun⟩ := CodeRuns.exists_run h
  exact List.mem_flatMap.2 ⟨run, hmem, CodeRun.mem_members hrun⟩

theorem blankCodes_not_word : ∀ n ∈ blankCodes,
    letterRuns.contains n = false ∧ digitRuns.contains n = false := by
  decide +kernel

end Text

namespace Rune

theorem isWord_of_isUpper {r : Rune} (h : r.isUpper = true) : r.isWord = true := by
  cases r with
  | stray b => exact absurd h (by simp [isUpper, isIn])
  | char c =>
      have hletter : (char c).isLetter = true := Text.letterRuns_contains_of_upperRuns h
      rw [isWord, hletter, Bool.true_or]

theorem isWord_eq_false_of_isBlank {r : Rune} (h : r.isBlank = true) : r.isWord = false := by
  cases r with
  | stray b => rfl
  | char c =>
      obtain ⟨hletter, hdigit⟩ := Text.blankCodes_not_word _ (Text.mem_blankCodes h)
      simp only [isWord, isLetter, isDigit, isIn, hletter, hdigit, Bool.or_self]

theorem isBlank_eq_false_of_isWord {r : Rune} (h : r.isWord = true) : r.isBlank = false := by
  cases hb : r.isBlank with
  | false => rfl
  | true => rw [isWord_eq_false_of_isBlank hb] at h; exact absurd h (by decide)

theorem code_of_isAsciiDigit {c : Char} (h : isAsciiDigit (char c) = true) :
    48 ≤ c.toNat ∧ c.toNat ≤ 57 := by
  simpa [isAsciiDigit, Char.isDigit, UInt32.le_iff_toNat_le] using h

theorem isUpper_eq_false_of_isAsciiDigit {r : Rune} (h : r.isAsciiDigit = true) :
    r.isUpper = false := by
  cases r with
  | stray b => rfl
  | char c =>
      obtain ⟨hlow, hhigh⟩ := code_of_isAsciiDigit h
      have hnone : ∀ n < 10, Text.upperRuns.contains (48 + n) = false := by decide
      have hcode : c.toNat = 48 + (c.toNat - 48) := by omega
      rw [isUpper, isIn, hcode]
      exact hnone _ (by omega)

theorem isBlank_eq_false_of_isAsciiDigit {r : Rune} (h : r.isAsciiDigit = true) :
    r.isBlank = false := by
  cases r with
  | stray b => rfl
  | char c =>
      have hc := code_of_isAsciiDigit h
      cases hb : (char c).isBlank with
      | false => rfl
      | true =>
          have hmem := Text.mem_blankCodes hb
          have hfar : ∀ n ∈ Text.blankCodes, n < 48 ∨ 57 < n := by decide
          have hor := hfar _ hmem
          omega

end Rune

end Tortoise
