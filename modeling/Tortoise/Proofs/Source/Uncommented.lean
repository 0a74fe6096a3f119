import Tortoise.Source.Feed
import Tortoise.Token.Scan
import Mathlib.Algebra.Ring.Parity

/-!
# Sources without their comments

A comment runs from a quote to the next one. `Uncommented s f` says that all comments of `s` are
closed and that `f` is `s` with each of them replaced by a blank. A source reads in one such way,
or it ends inside a comment; the number of its quotes tells which.
-/

namespace Tortoise

def Rune.quote : Rune := .char '"'

theorem Rune.shown_eq_quote_iff {r : Rune} : r.shown = '"' ↔ r = .quote := by
  cases r with
  | char c => simp [shown, quote]
  | stray b =>
      have hshown : (stray b).shown ≠ '"' := (by decide : '\uFFFD' ≠ '"')
      simp [hshown, quote]

/-- The source `s` is `f` once each comment is replaced by a blank. -/
inductive Uncommented : Text → Text → Prop
  | nil : Uncommented [] []
  | rune {r : Rune} {s f : Text} (hr : r ≠ .quote) (h : Uncommented s f) :
      Uncommented (r :: s) (.char r.shown :: f)
  | comment {c s f : Text} (hc : .quote ∉ c) (h : Uncommented s f) :
      Uncommented (.quote :: (c ++ .quote :: s)) (.char ' ' :: f)

namespace Uncommented

variable {s t f g : Text}

theorem append (hs : Uncommented s f) (ht : Uncommented t g) :
    Uncommented (s ++ t) (f ++ g) := by
  induction hs with
  | nil => exact ht
  | rune hr _ ih => exact .rune hr ih
  | comment hc _ ih => simpa using Uncommented.comment hc ih

/-- A place between two runes of the reading is a place in the source. -/
theorem split (h : Uncommented s (f ++ g)) :
    ∃ a b, s = a ++ b ∧ Uncommented a f ∧ Uncommented b g := by
  induction f generalizing s with
  | nil => exact ⟨[], s, rfl, .nil, h⟩
  | cons r f ih =>
      cases h with
      | rune hr h =>
          obtain ⟨a, b, rfl, ha, hb⟩ := ih h
          exact ⟨_ :: a, b, rfl, .rune hr ha, hb⟩
      | comment hc h =>
          obtain ⟨a, b, rfl, ha, hb⟩ := ih h
          exact ⟨_, b, by simp, .comment hc ha, hb⟩

theorem even_count (h : Uncommented s f) : Even (s.count .quote) := by
  induction h with
  | nil => exact Even.zero
  | rune hr _ ih => rwa [List.count_cons_of_ne hr]
  | comment hc _ ih =>
      rw [List.count_cons_self, List.count_append, List.count_eq_zero_of_not_mem hc,
        List.count_cons_self, Nat.zero_add]
      exact ih.add even_two

theorem eq_nil_of_nil (h : Uncommented [] f) : f = [] := by
  cases h
  rfl

/-- A text without quotes is read as it stands. -/
theorem of_forall (h : ∀ r ∈ s, r.isChar = true ∧ r ≠ .quote) : Uncommented s s := by
  induction s with
  | nil => exact .nil
  | cons r s ih =>
      obtain ⟨⟨hchar, hr⟩, hs⟩ := List.forall_mem_cons.1 h
      cases r with
      | stray b => cases hchar
      | char c => exact .rune hr (ih hs)

theorem of_blank (h : ∀ r ∈ s, r.isBlank = true) : Uncommented s s := by
  apply of_forall
  intro r hr
  have hblank := h r hr
  cases r with
  | stray b => cases hblank
  | char c =>
      refine ⟨rfl, fun hquote => ?_⟩
      rw [hquote] at hblank
      exact absurd hblank (by decide)

end Uncommented

/-- A source whose comments are closed, or one that ends inside a comment. -/
theorem exists_uncommented (s : Text) : (∃ f, Uncommented s f) ∨
    ∃ a c f, s = a ++ .quote :: c ∧ .quote ∉ c ∧ Uncommented a f := by
  -- A closed comment is passed at once, so the induction is on the length.
  induction hlen : s.length using Nat.strongRecOn generalizing s with
  | _ n ih =>
    cases s with
    | nil => exact .inl ⟨[], .nil⟩
    | cons r s =>
      by_cases hr : r = .quote
      · subst hr
        by_cases hclosed : .quote ∈ s
        · obtain ⟨c, rest, rfl, hc⟩ := List.eq_append_cons_of_mem hclosed
          have hshort : rest.length < n := by
            simp only [List.length_cons, List.length_append] at hlen
            omega
          obtain ⟨f, hf⟩ | ⟨a, d, f, rfl, hd, ha⟩ := ih _ hshort rest rfl
          · exact .inl ⟨_, .comment hc hf⟩
          · exact .inr ⟨_, d, _, by simp, hd, .comment hc ha⟩
        · exact .inr ⟨[], s, [], rfl, hclosed, .nil⟩
      · have hshort : s.length < n := by
          rw [← hlen, List.length_cons]
          omega
        obtain ⟨f, hf⟩ | ⟨a, d, f, rfl, hd, ha⟩ := ih _ hshort s rfl
        · exact .inl ⟨_, .rune hr hf⟩
        · exact .inr ⟨_ :: a, d, _, rfl, hd, .rune hr ha⟩

/-- Comments are closed if quotes pair up. -/
theorem exists_uncommented_iff {s : Text} :
    (∃ f, Uncommented s f) ↔ Even (s.count .quote) := by
  constructor
  · rintro ⟨f, hf⟩
    exact hf.even_count
  · intro heven
    obtain hf | ⟨a, c, f, rfl, hc, ha⟩ := exists_uncommented s
    · exact hf
    · rw [List.count_append, List.count_cons_self, List.count_eq_zero_of_not_mem hc] at heven
      exact absurd heven (Nat.not_even_iff_odd.2 (ha.even_count.add_odd odd_one))

namespace Feed

variable {failure : Option String} {s f c rest : Text} {p opened : Position}

theorem readFrom_quote :
    readFrom failure none p (.quote :: rest) = readFrom failure (some p) (p.after '"') rest :=
  if_pos rfl

theorem readFrom_rune {r : Rune} (hr : r ≠ .quote) : readFrom failure none p (r :: rest) =
    cons ⟨r.shown, p⟩ (readFrom failure none (p.after r.shown) rest) :=
  if_neg (Rune.shown_eq_quote_iff.not.2 hr)

/-- Inside a comment nothing is read. -/
theorem readFrom_inside (hc : .quote ∉ c) (p : Position) :
    ∃ q, ∀ rest, readFrom failure (some opened) p (c ++ rest) =
      readFrom failure (some opened) q rest := by
  induction c generalizing p with
  | nil => exact ⟨p, fun rest => rfl⟩
  | cons r c ih =>
      obtain ⟨hr, hc⟩ := not_or.1 (List.mem_cons.not.1 hc)
      obtain ⟨q, hq⟩ := ih hc (p.after r.shown)
      refine ⟨q, fun rest => ?_⟩
      rw [← hq rest]
      exact if_neg (Rune.shown_eq_quote_iff.not.2 (Ne.symm hr))

/-- The cells of a source in which all comments are closed hold its reading. -/
theorem readFrom_append (h : Uncommented s f) (p : Position) :
    ∃ cells q, cells.map Cell.rune = f ∧ ∀ rest, readFrom failure none p (s ++ rest) =
      ⟨cells ++ (readFrom failure none q rest).cells, (readFrom failure none q rest).ending⟩ := by
  induction h generalizing p with
  | nil => exact ⟨[], p, rfl, fun rest => rfl⟩
  | @rune r s f hr _ ih =>
      obtain ⟨cells, q, hcells, hread⟩ := ih (p.after r.shown)
      refine ⟨⟨r.shown, p⟩ :: cells, q, congrArg (Rune.char r.shown :: ·) hcells, ?_⟩
      intro rest
      rw [List.cons_append, readFrom_rune hr, hread rest]
      rfl
  | @comment c s f hc _ ih =>
      obtain ⟨q₁, hinside⟩ := @readFrom_inside failure c p hc (p.after '"')
      obtain ⟨cells, q, hcells, hread⟩ := ih (q₁.after '"')
      refine ⟨⟨' ', p⟩ :: cells, q, congrArg (Rune.char ' ' :: ·) hcells, ?_⟩
      intro rest
      have hclose : readFrom failure (some p) q₁ (.quote :: (s ++ rest)) =
          cons ⟨' ', p⟩ (readFrom failure none (q₁.after '"') (s ++ rest)) := if_pos rfl
      rw [List.cons_append, List.append_assoc, List.cons_append, readFrom_quote, hinside, hclose,
        hread rest]
      rfl

theorem ofText_of_uncommented (h : Uncommented s f) :
    ∃ cells q, cells.map Cell.rune = f ∧ ofText s none = ⟨cells, .eof q⟩ := by
  obtain ⟨cells, q, hcells, hread⟩ := @readFrom_append none s f h .first
  refine ⟨cells, q, hcells, ?_⟩
  have hall := hread []
  rw [List.append_nil] at hall
  rw [ofText, hall]
  exact congrArg (Feed.mk · (.eof q)) (List.append_nil cells)

theorem ofText_of_open (h : Uncommented s f) (hc : .quote ∉ c) :
    ∃ cells e, cells.map Cell.rune = f ∧
      ofText (s ++ .quote :: c) none = ⟨cells, .broken (.lexical e)⟩ := by
  obtain ⟨cells, q, hcells, hread⟩ := @readFrom_append none s f h .first
  obtain ⟨q₁, hinside⟩ := @readFrom_inside none c q hc (q.after '"')
  refine ⟨cells, ⟨.unterminatedComment, q⟩, hcells, ?_⟩
  have hend := hinside []
  rw [List.append_nil] at hend
  rw [ofText, hread, readFrom_quote, hend]
  exact congrArg (Feed.mk · _) (List.append_nil cells)

end Feed

/-- A source reads in one way. -/
theorem Uncommented.unique {s f g : Text} (hf : Uncommented s f) (hg : Uncommented s g) :
    f = g := by
  obtain ⟨cells, q, rfl, hfeed⟩ := Feed.ofText_of_uncommented hf
  obtain ⟨cells', q', rfl, hfeed'⟩ := Feed.ofText_of_uncommented hg
  rw [hfeed] at hfeed'
  exact congrArg (fun feed => feed.cells.map Cell.rune) hfeed'

/-- Behind a comment the source reads on. -/
theorem Uncommented.exists_behind_comment {a b c f g : Text}
    (h : Uncommented (a ++ .quote :: (c ++ .quote :: b)) f) (ha : Uncommented a g)
    (hc : .quote ∉ c) : ∃ h, Uncommented b h ∧ f = g ++ .char ' ' :: h := by
  have hcount : (a ++ .quote :: (c ++ .quote :: b)).count .quote =
      a.count .quote + 2 + b.count .quote := by
    rw [List.count_append, List.count_cons_self, List.count_append,
      List.count_eq_zero_of_not_mem hc, List.count_cons_self]
    omega
  have heven := h.even_count
  rw [hcount] at heven
  have hrest : Even (b.count .quote) :=
    (Nat.even_add.1 heven).1 (ha.even_count.add even_two)
  obtain ⟨rest, hrest⟩ := exists_uncommented_iff.2 hrest
  exact ⟨rest, hrest, h.unique (ha.append (.comment hc hrest))⟩

end Tortoise
