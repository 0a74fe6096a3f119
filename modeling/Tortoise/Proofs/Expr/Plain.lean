import Tortoise.Proofs.Expr.Recognition

/-!
# Expressions that can be written

The trees that the grammar derives have literals, identifiers and operators of the language only.
-/

namespace Tortoise

/-- An expression that a program can write down. -/
def Expr.Plain : Expr → Prop
  | .literal _ => True
  | .var name => name.isIdentifier = true
  | .unary op e => op.isKnown = true ∧ e.Plain
  | .binary op l r => op.isKnown = true ∧ l.Plain ∧ r.Plain
  | _ => False

namespace Expr

theorem Derives.plain {level : Level} {source : Text} {e : Expr} (h : Derives level source e) :
    e.Plain := by
  induction h with
  | operand _ ih => exact ih
  | chain hop _ _ _ ihl ihr => exact ⟨isKnown_of_mem_operators hop, ihl, ihr⟩
  | sign hop _ _ ih => exact ⟨hop, ih⟩
  | number => trivial
  | identifier _ _ hname => exact hname
  | group _ _ _ ih => exact ih

theorem plain_of_parse {bound : Nat} {source : Text} {e : Expr}
    (h : parse bound source = .ok e) : e.Plain :=
  (parse_eq_ok_iff.1 h).2.plain

theorem Plain.isAbsent_eq_false {e : Expr} (h : e.Plain) : e.isAbsent = false := by
  cases e with
  | absent => exact h.elim
  | _ => rfl

end Expr

theorem Text.ne_nil_of_isIdentifier {name : Text} (h : name.isIdentifier = true) :
    name.isEmpty = false := by
  cases name with
  | nil => simp [Text.isIdentifier] at h
  | cons r rest => rfl

end Tortoise
