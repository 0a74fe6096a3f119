import Tortoise.Proofs.Expr.Grammar
import Tortoise.Proofs.Success

/-!
# Splitting spans and the levels of the grammar

Splitting a span at its leftmost loosest operator, again and again, reads exactly what the levels
of the grammar derive when their tokens are lexemes: the operators left of the split bind tighter
than it, and those right of it bind at least as tightly.
-/

namespace Tortoise.Expr

/-- The grammar over lexemes; `G` says which trees the inside of a group derives. -/
inductive Reads (G : Text → Expr → Prop) : Level → List Lexeme → Expr → Prop
  | operand {level : Level} {span : List Lexeme} {e : Expr} :
      Reads G level.tighter span e → Reads G level span e
  | chain {level : Level} {op : Infix} {left right : List Lexeme} {a b : Expr} :
      op ∈ level.operators → Reads G level.tighter left a → Reads G level right b →
      Reads G level (left ++ .infixOp op :: right) (.binary op a b)
  | sign {op : Prefix} {span : List Lexeme} {e : Expr} :
      op.isKnown = true → Reads G .unary span e →
      Reads G .unary (.prefixOp op :: span) (.unary op e)
  | element {text : Text} {e : Expr} :
      parseElement text = .ok e → Reads G .atom [.element text] e
  | group {inner : Text} {e : Expr} : G inner e → Reads G .atom [.group inner] e

def Above (k : Nat) (span : List Lexeme) : Prop := ∀ x ∈ span, ∀ j, x.rank? = some j → k ≤ j

theorem Above.mono {j k : Nat} {span : List Lexeme} (h : Above k span) (hjk : j ≤ k) :
    Above j span := fun x hx i hi => Nat.le_trans hjk (h x hx i hi)

theorem above_append {k : Nat} {left right : List Lexeme} :
    Above k (left ++ right) ↔ Above k left ∧ Above k right := by
  simp only [Above, List.mem_append, or_imp, forall_and]

theorem above_cons {k : Nat} {x : Lexeme} {span : List Lexeme} :
    Above k (x :: span) ↔ (∀ j, x.rank? = some j → k ≤ j) ∧ Above k span := by
  simp only [Above, List.mem_cons, or_imp, forall_and, forall_eq]

theorem splitAtRank?_eq_some {k : Nat} {span left right : List Lexeme} {op : Lexeme}
    (h : splitAtRank? k span = some (left, op, right)) :
    op.rank? = some k ∧ ∀ x ∈ left, x.rank? ≠ some k := by
  induction span generalizing left with
  | nil => simp [splitAtRank?] at h
  | cons x rest ih =>
      simp only [splitAtRank?] at h
      split at h
      next hx =>
        simp only [Option.some.injEq, Prod.mk.injEq] at h
        obtain ⟨rfl, rfl, rfl⟩ := h
        exact ⟨hx, by simp⟩
      next hx =>
        simp only [Option.map_eq_some_iff, Prod.exists, Prod.mk.injEq] at h
        obtain ⟨left', op', right', hsplit, rfl, rfl, rfl⟩ := h
        obtain ⟨hop, hleft⟩ := ih hsplit
        refine ⟨hop, ?_⟩
        intro y hy
        rcases List.mem_cons.1 hy with rfl | hy
        · exact hx
        · exact hleft y hy

theorem splitAtRank?_append {k : Nat} {left right : List Lexeme} {op : Lexeme}
    (hop : op.rank? = some k) (hleft : ∀ x ∈ left, x.rank? ≠ some k) :
    splitAtRank? k (left ++ op :: right) = some (left, op, right) := by
  induction left with
  | nil => simp [splitAtRank?, hop]
  | cons x left ih =>
      have hx : x.rank? ≠ some k := hleft x (by simp)
      rw [List.cons_append, splitAtRank?, if_neg hx, ih fun y hy => hleft y (by simp [hy])]
      rfl

theorem loosest?_eq_some {span : List Lexeme} {k : Nat} (h : loosest? span = some k) :
    Above k span := by
  intro x hx j hj
  exact (List.min?_eq_some_iff.1 h).2 j (List.mem_filterMap.2 ⟨x, hx, hj⟩)

theorem loosest?_append {k : Nat} {left right : List Lexeme} {op : Lexeme}
    (hop : op.rank? = some k) (hleft : Above k left) (hright : Above k right) :
    loosest? (left ++ op :: right) = some k := by
  refine List.min?_eq_some_iff.2 ⟨List.mem_filterMap.2 ⟨op, by simp, hop⟩, ?_⟩
  intro j hj
  obtain ⟨x, hx, hxj⟩ := List.mem_filterMap.1 hj
  have hall : Above k (left ++ op :: right) :=
    above_append.2 ⟨hleft, above_cons.2 ⟨fun i hi => by simp_all, hright⟩⟩
  exact hall x hx j hxj

/-- The split of a span is the one place with tighter operators before it and no looser one
after it. -/
theorem splitLoosest?_eq_some_iff {span left right : List Lexeme} {op : Lexeme} :
    splitLoosest? span = some (left, op, right) ↔
      span = left ++ op :: right ∧
        ∃ k, op.rank? = some k ∧ Above (k + 1) left ∧ Above k right := by
  constructor
  · intro h
    have hspan := append_of_splitLoosest? h
    obtain ⟨k, hk, hsplit⟩ := Option.bind_eq_some_iff.1 h
    obtain ⟨hop, hleft⟩ := splitAtRank?_eq_some hsplit
    have habove := loosest?_eq_some hk
    rw [hspan, above_append, above_cons] at habove
    refine ⟨hspan, k, hop, ?_, habove.2.2⟩
    intro x hx j hj
    have hle := habove.1 x hx j hj
    have hne : j ≠ k := fun he => hleft x hx (he ▸ hj)
    omega
  · rintro ⟨rfl, k, hop, hleft, hright⟩
    have hk := loosest?_append hop (hleft.mono (Nat.le_succ k)) hright
    rw [splitLoosest?, hk, Option.bind_some]
    apply splitAtRank?_append hop
    intro x hx he
    have hle := hleft x hx k he
    omega

theorem Reads.ne_nil {G : Text → Expr → Prop} {level : Level} {span : List Lexeme} {e : Expr}
    (h : Reads G level span e) : span ≠ [] := by
  induction h with
  | operand _ ih => exact ih
  | _ => simp

theorem Reads.above {G : Text → Expr → Prop} {level : Level} {span : List Lexeme} {e : Expr}
    (h : Reads G level span e) : Above level.rank span := by
  induction h with
  | operand _ ih => exact ih.mono (Level.rank_le_rank_tighter _)
  | @chain level op left right _ _ hop _ _ ihl ihr =>
      refine above_append.2 ⟨ihl.mono (Level.rank_le_rank_tighter _), above_cons.2 ⟨?_, ihr⟩⟩
      intro j hj
      rw [Lexeme.rank?, Level.rank_of_mem_operators hop, Option.some.injEq] at hj
      exact Nat.le_of_eq hj
  | sign _ _ ih =>
      refine above_cons.2 ⟨?_, ih⟩
      intro j hj
      rw [Lexeme.rank?, Option.some.injEq] at hj
      exact Nat.le_of_eq hj
  | element _ => exact above_cons.2 ⟨by simp [Lexeme.rank?], by simp [Above]⟩
  | group _ => exact above_cons.2 ⟨by simp [Lexeme.rank?], by simp [Above]⟩

theorem Reads.loosen {G : Text → Expr → Prop} {low high : Level} {span : List Lexeme} {e : Expr}
    (h : Reads G high span e) (hrank : low.rank ≤ high.rank) : Reads G low span e :=
  Level.climb (P := fun level => Reads G level span e) (fun _ => .operand) hrank h

section Parsing

variable {group : Text → Except ParseError Expr} {source : Text}

theorem parseSpan_of_chain {left right : List Lexeme} {op : Infix} {a b : Expr}
    (hne : left ≠ []) (hsplit : splitLoosest? (left ++ .infixOp op :: right) =
      some (left, .infixOp op, right))
    (hleft : parseSpan group source left = .ok a) (hright : parseSpan group source right = .ok b) :
    parseSpan group source (left ++ .infixOp op :: right) = .ok (.binary op a b) := by
  obtain ⟨x, y, rest, hspan⟩ : ∃ x y rest, left ++ Lexeme.infixOp op :: right = x :: y :: rest := by
    match left with
    | [] => exact absurd rfl hne
    | [x] => exact ⟨x, _, _, rfl⟩
    | x :: y :: left => exact ⟨x, y, _, rfl⟩
  rw [hspan] at hsplit ⊢
  rw [parseSpan]
  split
  next h => rw [h] at hsplit; simp at hsplit
  next left' op' right' h =>
    rw [h] at hsplit
    simp only [Option.some.injEq, Prod.mk.injEq, Lexeme.infixOp.injEq] at hsplit
    obtain ⟨rfl, rfl, rfl⟩ := hsplit
    rw [hleft, hright]
    rfl
  next hnone => exact absurd hsplit (hnone _ _ _)

theorem parseSpan_of_sign {span : List Lexeme} {op : Prefix} {a : Expr} (hne : span ≠ [])
    (hsplit : splitLoosest? (.prefixOp op :: span) = some ([], .prefixOp op, span))
    (hspan : parseSpan group source span = .ok a) :
    parseSpan group source (.prefixOp op :: span) = .ok (.unary op a) := by
  obtain ⟨y, rest, rfl⟩ : ∃ y rest, span = y :: rest := List.exists_cons_of_ne_nil hne
  rw [parseSpan]
  split
  next left' op' right' h =>
    rw [h] at hsplit
    simp only [Option.some.injEq, Prod.mk.injEq, Lexeme.prefixOp.injEq] at hsplit
    obtain ⟨rfl, rfl, rfl⟩ := hsplit
    rw [hspan]
    rfl
  next h => rw [h] at hsplit; simp at hsplit
  next hnone _ => exact absurd hsplit (hnone _ _ _)

/-- What the levels derive, splitting reads. -/
theorem Reads.parseSpan_eq {G : Text → Expr → Prop} {level : Level} {span : List Lexeme}
    {e : Expr} (h : Reads G level span e) (hG : ∀ inner e, G inner e → group inner = .ok e) :
    parseSpan group source span = .ok e := by
  induction h with
  | operand _ ih => exact ih
  | @chain level op left right _ _ hop hl hr ihl ihr =>
      have hrank := Level.rank_of_mem_operators hop
      have hpos : op.rank + 1 ≤ level.tighter.rank := by
        rw [hrank]
        cases level <;> first | decide | simp [Level.operators] at hop
      refine parseSpan_of_chain hl.ne_nil ?_ ihl ihr
      exact splitLoosest?_eq_some_iff.2
        ⟨rfl, op.rank, rfl, hl.above.mono hpos, hr.above.mono (Nat.le_of_eq hrank)⟩
  | @sign op span _ _ hspan ih =>
      refine parseSpan_of_sign hspan.ne_nil ?_ ih
      exact splitLoosest?_eq_some_iff.2
        ⟨rfl, Prefix.rank, rfl, by simp [Above], hspan.above⟩
  | element h => simpa [parseSpan, parseSingle] using h
  | group h => simpa [parseSpan, parseSingle] using hG _ _ h

def Lexeme.isKnown : Lexeme → Bool
  | .infixOp op => op.isKnown
  | .prefixOp op => op.isKnown
  | _ => true

theorem exists_level {op : Infix} (h : op.isKnown = true) :
    ∃ level : Level, op ∈ level.operators := by
  cases op with
  | and => exact ⟨.logic, by simp [Level.operators]⟩
  | or => exact ⟨.logic, by simp [Level.operators]⟩
  | equal => exact ⟨.comparison, by simp [Level.operators]⟩
  | greater => exact ⟨.comparison, by simp [Level.operators]⟩
  | less => exact ⟨.comparison, by simp [Level.operators]⟩
  | add => exact ⟨.sum, by simp [Level.operators]⟩
  | sub => exact ⟨.sum, by simp [Level.operators]⟩
  | mul => exact ⟨.product, by simp [Level.operators]⟩
  | div => exact ⟨.product, by simp [Level.operators]⟩
  | unknown s foreign => simp [Infix.isKnown] at h

/-- What splitting reads, every level derives that is loose enough for the span. -/
theorem reads_of_parseSpan {G : Text → Expr → Prop}
    (hG : ∀ inner e, group inner = .ok e → G inner e)
    {span : List Lexeme} {e : Expr} (h : parseSpan group source span = .ok e)
    (hknown : ∀ x ∈ span, x.isKnown = true) {level : Level} (habove : Above level.rank span) :
    Reads G level span e := by
  fun_induction parseSpan group source span generalizing e level with
  | case1 => simp at h
  | case2 x =>
      cases x with
      | element text => exact (Reads.element h).loosen (by cases level <;> decide)
      | group inner => exact (Reads.group (hG _ _ h)).loosen (by cases level <;> decide)
      | prefixOp op => simp [parseSingle] at h
      | infixOp op => simp [parseSingle] at h
  | case3 x y rest left op right hsplit hempty ih =>
      obtain ⟨a, ha, rfl⟩ := map_eq_ok.1 h
      obtain ⟨hspan, k, hop, _, hright⟩ := splitLoosest?_eq_some_iff.1 hsplit
      rw [List.isEmpty_iff.1 hempty, List.nil_append] at hspan
      rw [hspan] at hknown habove ⊢
      obtain rfl : Prefix.rank = k := Option.some.inj hop
      have hread : Reads G .unary right a := ih ha (fun z hz => hknown z (by simp [hz])) hright
      refine (Reads.sign (hknown (.prefixOp op) (by simp)) hread).loosen ?_
      exact (above_cons.1 habove).1 Prefix.rank rfl
  | case4 => simp at h
  | case5 x y rest left op right hsplit ihl ihr =>
      obtain ⟨a, ha, h⟩ := bind_eq_ok.1 h
      obtain ⟨b, hb, h⟩ := bind_eq_ok.1 h
      obtain rfl : binary op a b = e := Except.ok.inj h
      obtain ⟨hspan, k, hop, hleft, hright⟩ := splitLoosest?_eq_some_iff.1 hsplit
      rw [hspan] at hknown habove ⊢
      have hop' : op.isKnown = true := hknown (.infixOp op) (by simp)
      obtain ⟨own, hown⟩ := exists_level hop'
      have hrank := Level.rank_of_mem_operators hown
      obtain rfl : op.rank = k := Option.some.inj hop
      have hnext : own.tighter.rank = op.rank + 1 := by
        rw [hrank]
        cases own <;> first | rfl | simp [Level.operators] at hown
      have hl : Reads G own.tighter left a :=
        ihl ha (fun z hz => hknown z (by simp [hz])) (hnext ▸ hleft)
      have hr : Reads G own right b :=
        ihr hb (fun z hz => hknown z (by simp [hz])) (hrank ▸ hright)
      refine (Reads.chain hown hl hr).loosen ?_
      rw [← hrank]
      exact (above_cons.1 (above_append.1 habove).2).1 op.rank rfl
  | case6 => simp at h

end Parsing

end Tortoise.Expr
