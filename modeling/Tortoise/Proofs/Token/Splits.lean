import Tortoise.Proofs.Expr.Cutting
import Tortoise.Token.Scan

/-!
# Words of a text

A text falls into words and the blanks between them. From a parenthesis on, a word is the shortest
balanced run; any other word goes on to the next blank. `Splits f ws rest` says that the words
`ws` stand in front of `rest` with nothing but blanks between them.

There is at most one way to go on, so words found in front stay words whatever follows, as long
as it does not run into the last of them.
-/

namespace Tortoise

open Tortoise.Expr (depthAfter depthAfter_cons depthAfter_append depthAfter_add Balanced)

namespace Text

/-- The shortest balanced run from an opening parenthesis. -/
structure Group (g : Text) : Prop where
  opens : g.head? = some (.char '(')
  balanced : Balanced g
  shortest : ∀ p q, g = p ++ q → p ≠ [] → Balanced p → q = []

structure Run (w : Text) : Prop where
  ne_nil : w ≠ []
  solid : ∀ r ∈ w, r.isBlank = false
  plain : w.head? ≠ some (.char '(')

def AtBlank (rest : Text) : Prop := ∀ r ∈ rest.head?, r.isBlank = true

def Word (w rest : Text) : Prop := w.Group ∨ w.Run ∧ rest.AtBlank

theorem isBlank_open : (Rune.char '(').isBlank = false := by decide

/-- Behind open parentheses the text closes the innermost that is open, and goes on. -/
theorem exists_closing_of_depthAfter {depth : Nat} {t : Text}
    (h : depthAfter (depth + 1) t = some 0) :
    ∃ inner rest, t = inner ++ .char ')' :: rest ∧ depthAfter depth inner = some 0 := by
  induction t generalizing depth with
  | nil => simp [depthAfter] at h
  | cons r t ih =>
      rw [depthAfter_cons] at h
      by_cases hopen : r.is '(' = true
      · rw [if_pos hopen] at h
        obtain ⟨inner, rest, rfl, hinner⟩ := ih h
        exact ⟨r :: inner, rest, rfl, by rw [depthAfter_cons, if_pos hopen, hinner]⟩
      · rw [if_neg hopen] at h
        by_cases hclose : r.is ')' = true
        · rw [if_pos hclose] at h
          cases depth with
          | zero => exact ⟨[], t, by rw [Expr.eq_char_of_is hclose]; rfl, rfl⟩
          | succ depth =>
              obtain ⟨inner, rest, rfl, hinner⟩ := ih h
              refine ⟨r :: inner, rest, rfl, ?_⟩
              rw [depthAfter_cons, if_neg hopen, if_pos hclose]
              exact hinner
        · rw [if_neg hclose] at h
          obtain ⟨inner, rest, rfl, hinner⟩ := ih h
          exact ⟨r :: inner, rest, rfl, by rw [depthAfter_cons, if_neg hopen, if_neg hclose, hinner]⟩

theorem group_iff {g : Text} :
    g.Group ↔ ∃ inner, Balanced inner ∧ g = .char '(' :: (inner ++ [.char ')']) := by
  constructor
  · intro h
    obtain ⟨t, rfl⟩ := List.head?_eq_some_iff.1 h.opens
    obtain ⟨inner, rest, rfl, hinner⟩ := exists_closing_of_depthAfter (h.balanced 0)
    have hbalanced := Expr.balanced_of_depthAfter hinner
    have hrest : rest = [] :=
      h.shortest (.char '(' :: inner ++ [.char ')']) rest (by simp) (by simp) hbalanced.paren
    exact ⟨inner, hbalanced, by rw [hrest]⟩
  · rintro ⟨inner, hinner, rfl⟩
    refine ⟨rfl, hinner.paren, fun p q hpq hp hbalanced => ?_⟩
    obtain _ | ⟨r, p⟩ := p
    · exact absurd rfl hp
    obtain ⟨rfl, htail⟩ : Rune.char '(' = r ∧ inner ++ [.char ')'] = p ++ q := List.cons.inj hpq
    rcases List.eq_nil_or_concat q with rfl | ⟨q, c, rfl⟩
    · rfl
    -- A shorter piece would be over while the first parenthesis is still open.
    rw [List.concat_eq_append, ← List.append_assoc] at htail
    obtain rfl : inner = p ++ q := List.append_inj_left' htail rfl
    have hpart := hinner 0
    rw [depthAfter_append, Option.bind_eq_some_iff] at hpart
    obtain ⟨depth, hdepth, -⟩ := hpart
    have hopen : depthAfter 1 p = some (depth + 1) := by simpa using depthAfter_add hdepth 1
    have hover : depthAfter 1 p = some 0 := hbalanced 0
    rw [hopen] at hover
    cases hover

namespace Word

variable {w v rest f g : Text}

theorem exists_cons (h : Word w rest) : ∃ r more, w = r :: more ∧ r.isBlank = false := by
  rcases h with hgroup | ⟨hrun, -⟩
  · obtain ⟨more, rfl⟩ := List.head?_eq_some_iff.1 hgroup.opens
    exact ⟨_, more, rfl, isBlank_open⟩
  · obtain ⟨r, more, rfl⟩ := List.exists_cons_of_ne_nil hrun.ne_nil
    exact ⟨r, more, rfl, hrun.solid r List.mem_cons_self⟩

/-- A word that is part of a longer one ends where that one does. -/
theorem eq_nil_of_append (hw : Word w (v ++ rest)) (hlong : Word (w ++ v) rest) : v = [] := by
  obtain ⟨r, more, rfl, -⟩ := hw.exists_cons
  rcases hw with hgroup | ⟨hrun, hend⟩
  · rcases hlong with hlong | ⟨hlong, -⟩
    · exact hlong.shortest _ v rfl (by simp) hgroup.balanced
    · exact absurd hgroup.opens hlong.plain
  · rcases hlong with hlong | ⟨hlong, -⟩
    · exact absurd hlong.opens hrun.plain
    · cases v with
      | nil => rfl
      | cons s v =>
          have hblank := hend s rfl
          rw [hlong.solid s (by simp)] at hblank
          cases hblank

/-- A text starts with one word only. -/
theorem unique (hw : Word w f) (hv : Word v g) (heq : w ++ f = v ++ g) : w = v ∧ f = g := by
  rcases List.append_eq_append_iff.1 heq with ⟨more, rfl, rfl⟩ | ⟨more, rfl, rfl⟩
  · obtain rfl := hw.eq_nil_of_append hv
    simp
  · obtain rfl := hv.eq_nil_of_append hw
    simp

/-- A word stays one if what follows it is exchanged for something that starts with a blank. -/
theorem exchange (h : Word w f) (hrest : rest.AtBlank) : Word w rest := by
  rcases h with hgroup | ⟨hrun, -⟩
  · exact .inl hgroup
  · exact .inr ⟨hrun, hrest⟩

end Word

end Text

open Text (Word AtBlank Blank)

/-- The text starts with the words, blanks between them, and ends with `rest`. -/
inductive Splits : Text → List Text → Text → Prop
  | here (rest : Text) : Splits rest [] rest
  | blank {r : Rune} {f rest : Text} {ws : List Text} (hr : r.isBlank = true)
      (h : Splits f ws rest) : Splits (r :: f) ws rest
  | word {w f rest : Text} {ws : List Text} (hw : Word w f) (h : Splits f ws rest) :
      Splits (w ++ f) (w :: ws) rest

namespace Splits

variable {f g rest : Text} {ws vs : List Text}

theorem of_blank {gap : Text} (hgap : gap.Blank) (rest : Text) : Splits (gap ++ rest) [] rest := by
  induction gap with
  | nil => exact .here rest
  | cons r gap ih =>
      obtain ⟨hr, hgap⟩ := Text.blank_cons.1 hgap
      exact .blank hr (ih hgap)

theorem append (h : Splits f ws g) (h' : Splits g vs rest) : Splits f (ws ++ vs) rest := by
  induction h with
  | here rest => exact h'
  | blank hr _ ih => exact .blank hr (ih h')
  | word hw _ ih => exact .word hw (ih h')

theorem ne_nil (h : Splits f ws rest) : ∀ w ∈ ws, w ≠ [] := by
  induction h with
  | here rest => simp
  | blank _ _ ih => exact ih
  | word hw _ ih =>
      refine List.forall_mem_cons.2 ⟨?_, ih⟩
      obtain ⟨r, more, rfl, -⟩ := hw.exists_cons
      simp

theorem eq_nil_of_nil (h : Splits [] ws rest) : ws = [] := by
  generalize htext : ([] : Text) = f at h
  cases h with
  | here => rfl
  | blank => cases htext
  | word hw _ =>
      obtain ⟨r, more, rfl, -⟩ := hw.exists_cons
      cases htext

/-- Words in front are the first words of the whole text. -/
theorem cancel (h : Splits f ws g) (hall : Splits f vs []) :
    ∃ us, vs = ws ++ us ∧ Splits g us [] := by
  induction h generalizing vs with
  | here rest => exact ⟨vs, rfl, hall⟩
  | @blank r f rest ws hr _ ih =>
      generalize htext : r :: f = text at hall
      cases hall with
      | here => cases htext
      | blank _ hall =>
          obtain ⟨-, rfl⟩ := List.cons.inj htext
          exact ih hall
      | word hw _ =>
          obtain ⟨s, more, rfl, hs⟩ := hw.exists_cons
          obtain ⟨rfl, -⟩ := List.cons.inj htext
          rw [hr] at hs
          cases hs
  | @word w f rest ws hw _ ih =>
      generalize htext : w ++ f = text at hall
      cases hall with
      | here =>
          obtain ⟨s, more, rfl, -⟩ := hw.exists_cons
          cases htext
      | blank hr _ =>
          obtain ⟨s, more, rfl, hs⟩ := hw.exists_cons
          obtain ⟨rfl, -⟩ := List.cons.inj htext
          rw [hr] at hs
          cases hs
      | word hv hall =>
          obtain ⟨rfl, rfl⟩ := hw.unique hv htext
          obtain ⟨us, rfl, hus⟩ := ih hall
          exact ⟨us, rfl, hus⟩

/-- What follows the words in front may be exchanged for anything that does not run into them. -/
theorem exchange (h : Splits f ws rest) : ∃ front, f = front ++ rest ∧
    ∀ other : Text, other.AtBlank → Splits (front ++ other) ws other := by
  induction h with
  | here rest => exact ⟨[], rfl, fun other _ => .here other⟩
  | @blank r f rest ws hr _ ih =>
      obtain ⟨front, rfl, hfront⟩ := ih
      exact ⟨r :: front, rfl, fun other hother => .blank hr (hfront other hother)⟩
  | @word w f rest ws hw _ ih =>
      obtain ⟨front, rfl, hfront⟩ := ih
      refine ⟨w ++ front, by simp, fun other hother => ?_⟩
      rw [List.append_assoc]
      apply Splits.word _ (hfront other hother)
      -- Only the rune behind the word matters, and it is the same unless the word ends there.
      cases front with
      | nil => exact hw.exchange hother
      | cons r front => exact hw

end Splits

def Text.Unclosed (t : Text) : Prop :=
  t.head? = some (.char '(') ∧ ∀ g rest, t = g ++ rest → ¬ g.Group

theorem exists_word {r : Rune} {f : Text} (hr : r.isBlank = false) :
    Text.Unclosed (r :: f) ∨ ∃ w rest, r :: f = w ++ rest ∧ Word w rest := by
  by_cases hopen : r = .char '('
  · by_cases hgroup : ∃ g rest : Text, r :: f = g ++ rest ∧ g.Group
    · obtain ⟨g, rest, heq, hg⟩ := hgroup
      exact .inr ⟨g, rest, heq, .inl hg⟩
    · exact .inl ⟨congrArg some hopen, fun g rest heq hg => hgroup ⟨g, rest, heq, hg⟩⟩
  · let solid (s : Rune) : Bool := !s.isBlank
    have hcut : (r :: f).takeWhile solid ++ (r :: f).dropWhile solid = r :: f :=
      List.takeWhile_append_dropWhile
    have hfirst : (r :: f).takeWhile solid = r :: f.takeWhile solid :=
      List.takeWhile_cons_of_pos (by simp [solid, hr])
    refine .inr ⟨_, _, hcut.symm, .inr ⟨⟨?_, ?_, ?_⟩, ?_⟩⟩
    · simp [hfirst]
    · intro s hs
      have hsolid : solid s = true := List.all_eq_true.1 List.all_takeWhile s hs
      simpa [solid] using hsolid
    · simpa [hfirst] using hopen
    · intro s hs
      have hstop := List.head?_dropWhile_not solid (r :: f)
      rw [Option.mem_def.1 hs] at hstop
      simpa [solid] using hstop

/-- A text falls into words, or it has a word in which a parenthesis is never closed. -/
theorem exists_splits (f : Text) : (∃ ws, Splits f ws []) ∨
    ∃ ws rest, Splits f ws rest ∧ rest.Unclosed := by
  induction hlen : f.length using Nat.strongRecOn generalizing f with
  | _ n ih =>
    cases f with
    | nil => exact .inl ⟨[], .here []⟩
    | cons r f =>
      by_cases hr : r.isBlank = true
      · obtain ⟨ws, h⟩ | ⟨ws, rest, h, hopen⟩ := ih _ (by simp [← hlen]) f rfl
        · exact .inl ⟨ws, .blank hr h⟩
        · exact .inr ⟨ws, rest, .blank hr h, hopen⟩
      · rw [Bool.not_eq_true] at hr
        obtain hopen | ⟨w, rest, heq, hw⟩ := @exists_word r f hr
        · exact .inr ⟨[], _, .here _, hopen⟩
        · have hshort : rest.length < n := by
            obtain ⟨s, more, rfl, -⟩ := hw.exists_cons
            rw [← hlen, heq, List.cons_append, List.length_cons, List.length_append]
            omega
          rw [heq]
          obtain ⟨ws, h⟩ | ⟨ws, last, h, hopen⟩ := ih _ hshort rest rfl
          · exact .inl ⟨_, .word hw h⟩
          · exact .inr ⟨_, last, .word hw h, hopen⟩

end Tortoise
