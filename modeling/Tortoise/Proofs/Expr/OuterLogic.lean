import Tortoise.Proofs.Expr.Recognition
import Tortoise.Proofs.Token.Splits

/-!
# Logical operators outside of parentheses

`and` and `or` bind loosest. So a text that derives a tree derives it at the level of comparisons
unless an `and` or `or` stands in it outside of all parentheses, and then it does not. Every such
operator is found when the text is cut: no group and no other word can hide it.
-/

namespace Tortoise.Expr

/-- An `and` or `or` stands in the text outside of parentheses, and no letter or digit touches
it. -/
def HasOuterLogic (t : Text) : Prop :=
  ∃ op ∈ Level.logic.operators, ∃ left right, t = left ++ (op.spelling ++ right) ∧
    depthAfter 0 left = some 0 ∧ WordBreak left right

section Found

variable {mark : Mark} {before : Option Rune}

theorem exists_mark?_of_word {after : Text} (hword : mark = .and ∨ mark = .or)
    (hfits : mark.Fits before after) : ∃ place, mark? before (mark.spelling ++ after) =
      some (mark, place) := by
  have hb := hfits hword
  rcases hword with rfl | rfl
  · exact ⟨.word 1, if_pos hb⟩
  · exact ⟨.word 0, if_pos hb⟩

/-- The first rune of a mark tells which it is. -/
theorem Mark.eq_of_head {mark' : Mark} (hword : mark = .and ∨ mark = .or)
    (h : mark'.spelling.head? = mark.spelling.head?) : mark' = mark := by
  rcases hword with rfl | rfl <;> cases mark' <;> first | rfl | exact absurd h (by decide)

theorem head?_spelling_append (mark : Mark) (rest : Text) :
    (mark.spelling ++ rest).head? = mark.spelling.head? := by
  cases mark <;> rfl

/-- No word operator fits behind a proper part of a mark. -/
theorem Mark.Fits.eq_nil {mark' : Mark} {left more after : Text}
    (hword : mark = .and ∨ mark = .or) (hfits : mark.Fits (behind before left) after)
    (hleft : left ≠ []) (hsplit : mark'.spelling = left ++ more) : more = [] := by
  by_cases hword' : mark' = .and ∨ mark' = .or
  · have hlast : (left.getLast hleft).isWord = true := by
      apply isWord_of_mem_spelling hword'
      rw [hsplit]
      exact List.mem_append_left more (List.getLast_mem hleft)
    have hb := hfits hword
    rw [behind_of_ne_nil hleft, List.getLast?_eq_some_getLast hleft] at hb
    simp [atBoundary, hlast] at hb
  · have hone : mark'.spelling.length = 1 := by
      cases mark' <;> first | rfl | simp at hword'
    have hpos := List.length_pos_iff.2 hleft
    rw [hsplit, List.length_append] at hone
    exact List.length_eq_zero_iff.1 (by omega)

/-- What stands behind a group at the start of a text that closes all its parentheses. -/
theorem exists_behind_group {inner rest left more : Text} (hinner : Balanced inner)
    (hsource : .char '(' :: inner ++ .char ')' :: rest = .char '(' :: left ++ more)
    (hdepth : depthAfter 0 (.char '(' :: left) = some 0) :
    ∃ left', .char '(' :: left = .char '(' :: inner ++ .char ')' :: left' ∧
      rest = left' ++ more ∧ depthAfter 0 left' = some 0 := by
  obtain ⟨inner', left', rfl, hinner'⟩ := Text.exists_closing_of_depthAfter hdepth
  have hgroup {t : Text} (ht : Balanced t) (f : Text) :
      Text.Word (.char '(' :: (t ++ [.char ')'])) f := .inl (Text.group_iff.2 ⟨t, ht, rfl⟩)
  have hbalanced := balanced_of_depthAfter hinner'
  obtain ⟨hword, hrest⟩ := (hgroup hinner rest).unique (hgroup hbalanced (left' ++ more))
    (by simpa using hsource)
  obtain rfl : inner = inner' := by simpa using hword
  refine ⟨left', rfl, hrest, ?_⟩
  have hclosed := hdepth
  rw [show Rune.char '(' :: (inner ++ .char ')' :: left') =
    (.char '(' :: inner ++ [.char ')']) ++ left' by simp, depthAfter_append, hinner.paren 0]
    at hclosed
  exact hclosed

/-- A word operator that fits where no parenthesis is open is found. -/
theorem Cuts.mem_of_fits {collected source left right : Text} {pieces : List Piece}
    (h : Cuts collected before source pieces) (hword : mark = .and ∨ mark = .or)
    (hsource : source = left ++ (mark.spelling ++ right)) (hdepth : depthAfter 0 left = some 0)
    (hfits : mark.Fits (behind before left) right) : .mark mark ∈ pieces := by
  induction h generalizing left with
  | done =>
      obtain ⟨-, hempty⟩ := List.append_eq_nil_iff.1 hsource.symm
      exact absurd (List.append_eq_nil_iff.1 hempty).1 (spelling_ne_nil mark)
  | @plain collected rest before r pieces hopen hclose hmark _ ih =>
      cases left with
      | nil =>
          rw [behind_nil] at hfits
          obtain ⟨place, hfound⟩ := exists_mark?_of_word hword hfits
          rw [hsource, List.nil_append, hfound] at hmark
          cases hmark
      | cons s left =>
          obtain ⟨rfl, hrest⟩ := List.cons.inj hsource
          rw [behind_cons] at hfits
          rw [depthAfter_cons, hopen, hclose] at hdepth
          exact ih hrest hdepth hfits
  | @group collected inner rest before pieces hinner _ ih =>
      cases left with
      | nil =>
          have hhead : some (.char '(') = mark.spelling.head? := by
            rw [← head?_spelling_append mark right]
            exact congrArg List.head? hsource
          rcases hword with rfl | rfl <;> exact absurd hhead (by decide)
      | cons s left =>
          obtain rfl : .char '(' = s := (List.cons.inj hsource).1
          obtain ⟨left', hleft, hrest, hdepth'⟩ := exists_behind_group hinner hsource hdepth
          rw [hleft, behind_append, behind_cons] at hfits
          have hfound := ih hrest hdepth' hfits
          exact List.mem_append_right _ (List.mem_cons_of_mem _ hfound)
  | @mark collected rest before mark' pieces hfits' _ ih =>
      by_cases hempty : left = []
      · rw [hempty, List.nil_append] at hsource
        have hheads := congrArg List.head? hsource
        rw [head?_spelling_append, head?_spelling_append] at hheads
        rw [Mark.eq_of_head hword hheads]
        exact List.mem_append_right _ List.mem_cons_self
      · -- The mark that was found is over where this one starts.
        obtain ⟨left', hleft, hrest⟩ : ∃ left', left = mark'.spelling ++ left' ∧
            rest = left' ++ (mark.spelling ++ right) := by
          rcases List.append_eq_append_iff.1 hsource with hbehind | ⟨more, hsplit, hrest⟩
          · exact hbehind
          · obtain rfl := hfits.eq_nil hword hempty hsplit
            exact ⟨[], by simp [hsplit], by simpa using hrest.symm⟩
        have hbalanced : Balanced mark'.spelling := by
          apply balanced_of_forall
          cases mark' <;> decide
        rw [hleft, behind_append] at hfits
        rw [hleft, depthAfter_append, hbalanced 0] at hdepth
        have hfound := ih hrest hdepth hfits
        exact List.mem_append_right _ (List.mem_cons_of_mem _ hfound)

end Found

theorem exists_rank_of_mem {operand : Bool} {pieces : List Piece} {span : List Lexeme} {mark : Mark}
    (h : classify operand pieces = .ok span) (hword : mark = .and ∨ mark = .or)
    (hmem : .mark mark ∈ pieces) : ∃ x ∈ span, x.rank? = some Level.logic.rank := by
  induction pieces generalizing operand span with
  | nil => cases hmem
  | cons piece pieces ih =>
      cases piece with
      | element text =>
          obtain ⟨rest, hrest, rfl⟩ := map_eq_ok.1 h
          obtain ⟨x, hx, hrank⟩ := ih hrest (by simpa using hmem)
          exact ⟨x, List.mem_cons_of_mem _ hx, hrank⟩
      | group inner =>
          obtain ⟨rest, hrest, rfl⟩ := map_eq_ok.1 h
          obtain ⟨x, hx, hrank⟩ := ih hrest (by simpa using hmem)
          exact ⟨x, List.mem_cons_of_mem _ hx, hrank⟩
      | mark found =>
          obtain ⟨x, rest, rfl, hrest, hx⟩ := classify_mark.1 h
          rcases List.mem_cons.1 hmem with heq | hmem
          · obtain rfl := Piece.mark.inj heq
            refine ⟨x, List.mem_cons_self, ?_⟩
            rcases hx with ⟨-, op, hop, rfl⟩ | ⟨-, op, hop, rfl⟩
            · rcases hword with rfl | rfl <;> cases hop <;> rfl
            · exact absurd hword (not_or.2 (spelling_of_asPrefix? hop).2.2)
          · obtain ⟨y, hy, hrank⟩ := ih hrest hmem
            exact ⟨y, List.mem_cons_of_mem _ hy, hrank⟩

/-- Comparisons are what is derived without logical operators outside of parentheses. -/
theorem derives_comparison_iff {source : Text} {e : Expr} :
    Derives .comparison source e ↔ Derives .logic source e ∧ ¬ HasOuterLogic source := by
  constructor
  · intro h
    refine ⟨.operand h, ?_⟩
    rintro ⟨op, hop, left, right, hsource, hdepth, hbreak⟩
    obtain ⟨mark, hmark⟩ := exists_asInfix? (isKnown_of_mem_operators hop)
    obtain ⟨hspelling, -, hword⟩ := spelling_of_asInfix? hmark
    have hlogic : mark = .and ∨ mark = .or := hword.2 (by simpa [Level.operators] using hop)
    obtain ⟨pieces, span, hcuts, -, hspan, hreads⟩ := h.exists_reads (Nat.le_refl _) none
    rw [← hspelling] at hsource
    have hfits : mark.Fits (behind none left) right := by
      intro _
      rw [behind, Option.or_none]
      exact atBoundary_of_wordBreak hbreak
    have hfound := hcuts.mem_of_fits hlogic hsource hdepth hfits
    obtain ⟨x, hx, hrank⟩ := exists_rank_of_mem hspan hlogic hfound
    have habove := hreads.above x hx _ hrank
    exact absurd habove (by decide)
  · rintro ⟨h, houter⟩
    cases h with
    | operand h => exact h
    | @chain _ op left right a b hop hbreak hl hr =>
        refine absurd ⟨op, hop, left, right, List.append_assoc _ _ _, hl.balanced 0, ?_⟩ houter
        exact hbreak (by simpa [Level.operators] using hop)

end Tortoise.Expr
