import Tortoise.Program.Binary
import Tortoise.Proofs.Cbor.Record
import Tortoise.Proofs.Success

/-!
# Expressions in binary form

The record of an expression is read back as its node if the texts in it are well-formed, and the
node as the expression if that is absent or complete. A record nests as deep as its expression.
-/

namespace Tortoise

/-- A text that exists as bytes: it is what its bytes are read as, and 63 bits count them. -/
structure Text.Storable (t : Text) : Prop where
  ofBytes_eq : ofBytes t.bytes = t
  size_lt : t.size < 2 ^ 63

namespace Expr

def depth : Expr → Nat
  | absent => 0
  | null => 1
  | literal _ => 1
  | var _ => 1
  | unary _ e => e.depth + 1
  | binary _ l r => max l.depth r.depth + 1
  | foreign _ => 1

def texts : Expr → List Text
  | var name => [name]
  | unary op e => op.spelling :: e.texts
  | binary op l r => op.spelling :: (l.texts ++ r.texts)
  | _ => []

end Expr

namespace Node

def depth : Node → Nat
  | missing => 0
  | node _ _ _ _ left right => max left.depth right.depth + 1

def texts : Node → List Text
  | missing => []
  | node _ _ name op left right => name :: op :: (left.texts ++ right.texts)

section Expressions

variable {e : Expr} {n : Node}

theorem toExpr_unary_iff {kind : UInt8} {value : Int64} {name op : Text} {left right : Node}
    (hkind : kind.toNat = 3) : (node kind value name op left right).toExpr = .ok e ↔
      (Prefix.ofSpelling op).isKnown = true ∧ left.isMissing = false ∧
        ∃ operand, left.toExpr = .ok operand ∧ .unary (.ofSpelling op) operand = e := by
  simp only [toExpr, hkind]
  cases (Prefix.ofSpelling op).isKnown <;> cases left.isMissing <;>
    simp [bind_eq_ok, pure, Except.pure]

theorem toExpr_binary_iff {kind : UInt8} {value : Int64} {name op : Text} {left right : Node}
    (hkind : kind.toNat = 4) : (node kind value name op left right).toExpr = .ok e ↔
      (Infix.ofSpelling op).isKnown = true ∧ left.isMissing = false ∧ right.isMissing = false ∧
        ∃ l, left.toExpr = .ok l ∧ ∃ r, right.toExpr = .ok r ∧
          .binary (.ofSpelling op) l r = e := by
  simp only [toExpr, hkind]
  cases (Infix.ofSpelling op).isKnown <;> cases left.isMissing <;> cases right.isMissing <;>
    simp [bind_eq_ok, pure, Except.pure]

theorem ofExpr_unary_iff {op : Prefix} : ofExpr (.unary op e) = .ok n ↔
    ∃ operand, ofExpr e = .ok operand ∧ node 3 0 [] op.spelling operand missing = n := by
  simp only [ofExpr, bind_eq_ok, pure, Except.pure, Except.ok.injEq]

theorem ofExpr_binary_iff {op : Infix} {l r : Expr} : ofExpr (.binary op l r) = .ok n ↔
    ∃ left, ofExpr l = .ok left ∧ ∃ right, ofExpr r = .ok right ∧
      node 4 0 [] op.spelling left right = n := by
  simp only [ofExpr, bind_eq_ok, pure, Except.pure, Except.ok.injEq]

theorem exists_ofExpr (h : e.isComplete = true) : ∃ n, ofExpr e = .ok n := by
  induction e with
  | absent => cases h
  | null | literal | var => exact ⟨_, rfl⟩
  | unary op e ih =>
      obtain ⟨n, hn⟩ := ih (Bool.and_eq_true_iff.1 h).2
      exact ⟨_, ofExpr_unary_iff.2 ⟨n, hn, rfl⟩⟩
  | binary op l r ihl ihr =>
      obtain ⟨hl, hr⟩ := Bool.and_eq_true_iff.1 h
      obtain ⟨left, hleft⟩ := ihl (Bool.and_eq_true_iff.1 hl).2
      obtain ⟨right, hright⟩ := ihr hr
      exact ⟨_, ofExpr_binary_iff.2 ⟨left, hleft, right, hright, rfl⟩⟩
  | foreign kind => cases h

theorem depth_of_ofExpr (h : ofExpr e = .ok n) : n.depth = e.depth := by
  induction e generalizing n with
  | absent | null | literal | var => cases h; rfl
  | unary op e ih =>
      obtain ⟨operand, hoperand, rfl⟩ := ofExpr_unary_iff.1 h
      simp [depth, Expr.depth, ih hoperand]
  | binary op l r ihl ihr =>
      obtain ⟨left, hleft, right, hright, rfl⟩ := ofExpr_binary_iff.1 h
      rw [depth, Expr.depth, ihl hleft, ihr hright]
  | foreign kind => cases h

theorem forall_texts_of_ofExpr {P : Text → Prop} (hnil : P []) (h : ofExpr e = .ok n) :
    (∀ t ∈ n.texts, P t) ↔ ∀ t ∈ e.texts, P t := by
  induction e generalizing n with
  | absent | null | literal | var => cases h; simp [texts, Expr.texts, hnil]
  | unary op e ih =>
      obtain ⟨operand, hoperand, rfl⟩ := ofExpr_unary_iff.1 h
      simp [texts, Expr.texts, hnil, ih hoperand]
  | binary op l r ihl ihr =>
      obtain ⟨left, hleft, right, hright, rfl⟩ := ofExpr_binary_iff.1 h
      simp only [texts, Expr.texts, List.forall_mem_cons, List.forall_mem_append, hnil, true_and,
        ihl hleft, ihr hright]
  | foreign kind => cases h

theorem isMissing_of_ofExpr (h : ofExpr e = .ok n) : n.isMissing = e.isAbsent := by
  cases e with
  | absent | null | literal | var => cases h; rfl
  | unary op e =>
      obtain ⟨operand, -, rfl⟩ := ofExpr_unary_iff.1 h
      rfl
  | binary op l r =>
      obtain ⟨left, -, right, -, rfl⟩ := ofExpr_binary_iff.1 h
      rfl
  | foreign kind => cases h

/-- The node of an expression is read as that expression if no part of it is lacking, and is
refused otherwise. -/
theorem toExpr_of_ofExpr (h : ofExpr e = .ok n) {found : Expr} :
    n.toExpr = .ok found ↔ (e = .absent ∨ e.isComplete = true) ∧ found = e := by
  have hpresent {operand : Expr} : operand.isAbsent = false ∧
      (operand = .absent ∨ operand.isComplete = true) ↔ operand.isComplete = true := by
    cases operand <;> simp [Expr.isAbsent, Expr.isComplete]
  induction e generalizing n found with
  | absent | null | literal => cases h; simp [toExpr, Expr.isComplete, eq_comm]
  | var name => cases h; cases name <;> simp [toExpr, Expr.isComplete, eq_comm]
  | unary op e ih =>
      obtain ⟨operand, hof, rfl⟩ := ofExpr_unary_iff.1 h
      rw [toExpr_unary_iff rfl, isMissing_of_ofExpr hof, Prefix.ofSpelling_spelling]
      simp only [ih hof, reduceCtorEq, false_or, Expr.isComplete, Bool.and_eq_true]
      constructor
      · rintro ⟨hknown, habsent, _, ⟨hcomplete, rfl⟩, rfl⟩
        exact ⟨⟨hknown, hpresent.1 ⟨habsent, hcomplete⟩⟩, rfl⟩
      · rintro ⟨⟨hknown, hcomplete⟩, rfl⟩
        obtain ⟨habsent, hsome⟩ := hpresent.2 hcomplete
        exact ⟨hknown, habsent, _, ⟨hsome, rfl⟩, rfl⟩
  | binary op l r ihl ihr =>
      obtain ⟨left, hleft, right, hright, rfl⟩ := ofExpr_binary_iff.1 h
      rw [toExpr_binary_iff rfl, isMissing_of_ofExpr hleft, isMissing_of_ofExpr hright,
        Infix.ofSpelling_spelling]
      simp only [ihl hleft, ihr hright, reduceCtorEq, false_or, Expr.isComplete, Bool.and_eq_true]
      constructor
      · rintro ⟨hknown, hl, hr, _, ⟨hlcomplete, rfl⟩, _, ⟨hrcomplete, rfl⟩, rfl⟩
        exact ⟨⟨⟨hknown, hpresent.1 ⟨hl, hlcomplete⟩⟩, hpresent.1 ⟨hr, hrcomplete⟩⟩, rfl⟩
      · rintro ⟨⟨⟨hknown, hlcomplete⟩, hrcomplete⟩, rfl⟩
        obtain ⟨hl, hlsome⟩ := hpresent.2 hlcomplete
        obtain ⟨hr, hrsome⟩ := hpresent.2 hrcomplete
        exact ⟨hknown, hl, hr, _, ⟨hlsome, rfl⟩, _, ⟨hrsome, rfl⟩, rfl⟩
  | foreign kind => cases h

end Expressions

end Node

namespace Binary

open Cbor

section Fields

variable {r : Record} {j k : Nat}

theorem lookup_singleton (j k : Nat) (item : Item) :
    List.lookup j [(k, item)] = if j = k then some item else none := by
  rw [List.lookup_cons, List.lookup_nil]
  by_cases h : j = k
  · rw [if_pos h, beq_iff_eq.2 h]
  · rw [if_neg h, beq_eq_false_iff_ne.2 h]

theorem lookup_intField (j k : Nat) (n : Int) :
    (intField k n).lookup j = if j = k ∧ n ≠ 0 then some (.ofInt n) else none := by
  unfold intField
  by_cases hn : n = 0
  · simp [hn]
  · simp [hn, lookup_singleton]

theorem lookup_textField (j k : Nat) (t : Text) :
    (textField k t).lookup j = if j = k ∧ t ≠ [] then some (.ofText t) else none := by
  unfold textField
  cases t with
  | nil => simp
  | cons c t => simp [lookup_singleton]

theorem lookup_nodeField (j k : Nat) (n : Node) :
    (nodeField k n).lookup j = if j = k then nodeItem? n else none := by
  unfold nodeField
  cases hitem : nodeItem? n with
  | none => simp
  | some item => simp [lookup_singleton]

theorem forall_mem_intField {P : Nat × Item → Prop} {n : Int} (h : P (k, .ofInt n)) :
    ∀ field ∈ intField k n, P field := by
  unfold intField
  split
  · simp
  · simpa using h

theorem forall_mem_textField {P : Nat × Item → Prop} {t : Text} (h : P (k, .ofText t)) :
    ∀ field ∈ textField k t, P field := by
  unfold textField
  split
  · simp
  · simpa using h

theorem forall_mem_nodeField {P : Nat × Item → Prop} {n : Node} :
    (∀ field ∈ nodeField k n, P field) ↔ ∀ item, nodeItem? n = some item → P (k, item) := by
  unfold nodeField
  split <;> simp_all

theorem length_intField_le (k : Nat) (n : Int) : (intField k n).length ≤ 1 := by
  unfold intField
  split <;> simp

theorem length_textField_le (k : Nat) (t : Text) : (textField k t).length ≤ 1 := by
  unfold textField
  split <;> simp

theorem length_nodeField_le (k : Nat) (n : Node) : (nodeField k n).length ≤ 1 := by
  unfold nodeField
  split <;> simp

theorem field_int {n : Int} (hlookup : r.lookup k = (intField k n).lookup k)
    (hn : -2 ^ 63 ≤ n ∧ n < 2 ^ 63) : r.field k 0 Item.int64? = some (Int64.ofInt n) := by
  rw [Record.field, hlookup, lookup_intField]
  by_cases hzero : n = 0
  · subst hzero
    simp
  · simp only [hzero, ne_eq, not_false_eq_true, and_self, if_true]
    exact Item.int64?_ofInt hn

theorem field_byte {n : UInt8} (hlookup : r.lookup k = (intField k n.toNat).lookup k) :
    r.field k 0 Item.uint8? = some n := by
  rw [Record.field, hlookup, lookup_intField]
  by_cases hzero : (n.toNat : Int) = 0
  · obtain rfl : n = 0 := UInt8.toNat_inj.1 (Int.natCast_eq_zero.1 hzero)
    simp
  · simp only [hzero, ne_eq, not_false_eq_true, and_self, if_true]
    exact Item.uint8?_ofInt n

theorem field_text {t u : Text} (hlookup : r.lookup k = (textField k t).lookup k)
    (ht : Text.ofBytes t.bytes = t) :
    r.field k [] Item.text? = some u ↔ t.isWellFormed = true ∧ u = t := by
  rw [Record.field, hlookup, lookup_textField]
  cases t with
  | nil => simp [Text.isWellFormed, eq_comm]
  | cons c t =>
      simp only [ne_eq, reduceCtorEq, not_false_eq_true, and_self, if_true]
      exact Item.text?_ofText ht

theorem field_node {n found : Node} {P : Prop} {read : Item → Option Node}
    (hlookup : r.lookup k = (nodeField k n).lookup k) (hmissing : n = .missing → P)
    (hread : ∀ item, nodeItem? n = some item → (read item = some found ↔ P ∧ found = n)) :
    r.field k .missing read = some found ↔ P ∧ found = n := by
  rw [Record.field, hlookup, lookup_nodeField, if_pos rfl]
  cases n with
  | missing => simp [nodeItem?, hmissing, eq_comm]
  | node => exact hread _ rfl

end Fields

def nodeFields (kind : UInt8) (value : Int64) (name op : Text) (left right : Node) : Record :=
  [(1, .unsigned kind.toNat)] ++ intField 2 value.toInt ++ textField 3 name ++ textField 4 op
    ++ nodeField 5 left ++ nodeField 6 right

section Nodes

variable {kind : UInt8} {value : Int64} {name op : Text} {left right n : Node} {levels : Nat}
  {item : Item}

theorem nodeItem?_node : nodeItem? (.node kind value name op left right) =
    some (.ofFields (nodeFields kind value name op left right)) := rfl

theorem length_nodeFields (kind : UInt8) (value : Int64) (name op : Text) (left right : Node) :
    (nodeFields kind value name op left right).length ≤ 6 := by
  have hvalue := length_intField_le 2 value.toInt
  have hname := length_textField_le 3 name
  have hop := length_textField_le 4 op
  have hleft := length_nodeField_le 5 left
  have hright := length_nodeField_le 6 right
  simp only [nodeFields, List.length_append, List.length_singleton]
  omega

theorem canonical_nodeItem? (htexts : ∀ t ∈ n.texts, t.size < 2 ^ 63) :
    ∀ item, nodeItem? n = some item → item.Canonical := by
  induction n with
  | missing => simp [nodeItem?]
  | node kind value name op left right ihl ihr =>
      simp only [Node.texts, List.forall_mem_cons, List.forall_mem_append] at htexts
      obtain ⟨hname, hop, hleft, hright⟩ := htexts
      have hlength := length_nodeFields kind value name op left right
      have hkind := kind.toNat_lt
      rw [nodeItem?_node]
      simp only [Option.some.injEq, forall_eq']
      refine Item.canonical_ofFields (by omega) ?_
      simp only [nodeFields, List.forall_mem_append, List.forall_mem_singleton]
      refine ⟨⟨⟨⟨⟨⟨by decide, .unsigned (by omega)⟩, ?_⟩, ?_⟩, ?_⟩, ?_⟩, ?_⟩
      · exact forall_mem_intField ⟨by simp, Item.canonical_ofInt ⟨value.le_toInt, value.toInt_lt⟩⟩
      · exact forall_mem_textField ⟨by simp, Item.canonical_ofText (by omega)⟩
      · exact forall_mem_textField ⟨by simp, Item.canonical_ofText (by omega)⟩
      · exact forall_mem_nodeField.2 fun item hitem => ⟨by simp, ihl hleft item hitem⟩
      · exact forall_mem_nodeField.2 fun item hitem => ⟨by simp, ihr hright item hitem⟩

/-- Where each field of a node is found. -/
theorem lookup_nodeFields (k : Nat) : (nodeFields kind value name op left right).lookup k =
    ((((((if k = 1 then some (.unsigned kind.toNat) else none).or
      (if k = 2 ∧ value.toInt ≠ 0 then some (.ofInt value.toInt) else none)).or
      (if k = 3 ∧ name ≠ [] then some (.ofText name) else none)).or
      (if k = 4 ∧ op ≠ [] then some (.ofText op) else none)).or
      (if k = 5 then nodeItem? left else none)).or
      (if k = 6 then nodeItem? right else none)) := by
  simp only [nodeFields, List.lookup_append, lookup_singleton, lookup_intField, lookup_textField,
    lookup_nodeField]

/-- A record nests as deep as its node. -/
theorem fits_nodeItem?_iff (htexts : ∀ t ∈ n.texts, t.size < 2 ^ 63) :
    (∀ item, nodeItem? n = some item → item.Fits levels false) ↔ n.depth ≤ levels := by
  induction n generalizing levels with
  | missing => simp [nodeItem?, Node.depth]
  | node kind value name op left right ihl ihr =>
      simp only [Node.texts, List.forall_mem_cons, List.forall_mem_append] at htexts
      obtain ⟨hname, hop, hleft, hright⟩ := htexts
      rw [nodeItem?_node]
      simp only [Option.some.injEq, forall_eq', Node.depth]
      cases levels with
      | zero =>
          refine ⟨?_, by omega⟩
          rintro ⟨⟩
      | succ levels =>
          have hlength := length_nodeFields kind value name op left right
          have hcount : (nodeFields kind value name op left right).length ≤ maxCount :=
            Nat.le_trans hlength (by decide)
          rw [Item.fits_ofFields_iff]
          constructor
          · rintro ⟨-, hfields⟩
            simp only [nodeFields, List.forall_mem_append, forall_mem_nodeField] at hfields
            have hl := (ihl hleft).1 hfields.1.2
            have hr := (ihr hright).1 hfields.2
            omega
          · intro hdepth
            refine ⟨hcount, ?_⟩
            simp only [nodeFields, List.forall_mem_append, List.forall_mem_singleton]
            refine ⟨⟨⟨⟨⟨.unsigned, ?_⟩, ?_⟩, ?_⟩, ?_⟩, ?_⟩
            · exact forall_mem_intField (Item.fits_ofInt _ _)
            · exact forall_mem_textField (Item.fits_ofText (by omega) _)
            · exact forall_mem_textField (Item.fits_ofText (by omega) _)
            · exact forall_mem_nodeField.2 ((ihl hleft).2 (by omega))
            · exact forall_mem_nodeField.2 ((ihr hright).2 (by omega))

/-- The record of a node is read back if the texts in it are well-formed, and refused
otherwise. -/
theorem nodeOf_nodeItem?_iff (hlevels : n.depth ≤ levels)
    (htexts : ∀ t ∈ n.texts, Text.ofBytes t.bytes = t) {item : Item}
    (hitem : nodeItem? n = some item) {found : Node} :
    nodeOf levels item = some found ↔ (∀ t ∈ n.texts, t.isWellFormed = true) ∧ found = n := by
  induction n generalizing levels item found with
  | missing => cases hitem
  | node kind value name op left right ihl ihr =>
      simp only [Node.texts, List.forall_mem_cons, List.forall_mem_append] at htexts ⊢
      obtain ⟨hname, hop, hleft, hright⟩ := htexts
      simp only [Node.depth] at hlevels
      obtain ⟨levels, rfl⟩ : ∃ k, levels = k + 1 := ⟨levels - 1, by omega⟩
      rw [nodeItem?_node] at hitem
      obtain rfl := Option.some.inj hitem
      have hlookup := @lookup_nodeFields kind value name op left right
      generalize nodeFields kind value name op left right = r at hlookup
      have hkind : r.field 1 0 Item.uint8? = some kind := by
        rw [Record.field, hlookup]
        exact Item.uint8?_unsigned kind
      have hvalue : r.field 2 0 Item.int64? = some value := by
        have hfield := field_int (r := r) (k := 2) (by simp [hlookup, lookup_intField])
          ⟨value.le_toInt, value.toInt_lt⟩
        rwa [Int64.ofInt_toInt] at hfield
      have hname (u : Text) : r.field 3 [] Item.text? = some u ↔ _ :=
        field_text (by simp [hlookup, lookup_textField]) hname
      have hop (u : Text) : r.field 4 [] Item.text? = some u ↔ _ :=
        field_text (by simp [hlookup, lookup_textField]) hop
      have hleft (n : Node) : r.field 5 .missing (nodeOf levels) = some n ↔ _ :=
        field_node (by simp [hlookup, lookup_nodeField]) (by rintro rfl; simp [Node.texts])
          fun item hitem => ihl (by omega) hleft hitem
      have hright (n : Node) : r.field 6 .missing (nodeOf levels) = some n ↔ _ :=
        field_node (by simp [hlookup, lookup_nodeField]) (by rintro rfl; simp [Node.texts])
          fun item hitem => ihr (by omega) hright hitem
      have hnull : (Item.ofFields r).isNull = false := rfl
      simp only [nodeOf, hnull, Bool.false_eq_true, if_false, Item.record?_ofFields, hkind, hvalue,
        Option.bind_eq_bind, Option.bind_some, Option.bind_eq_some_iff, hname, hop, hleft, hright,
        Option.pure_def, Option.some.injEq]
      constructor
      · rintro ⟨_, ⟨hname, rfl⟩, _, ⟨hop, rfl⟩, _, ⟨hleft, rfl⟩, _, ⟨hright, rfl⟩, rfl⟩
        exact ⟨⟨hname, hop, hleft, hright⟩, rfl⟩
      · rintro ⟨⟨hname, hop, hleft, hright⟩, rfl⟩
        exact ⟨_, ⟨hname, rfl⟩, _, ⟨hop, rfl⟩, _, ⟨hleft, rfl⟩, _, ⟨hright, rfl⟩, rfl⟩

end Nodes

end Binary

end Tortoise
