import Tortoise.Expr.Eval
import Tortoise.Program.Block
import Tortoise.Proofs.Expr.Rendering

/-!
# What a written expression determines

Different trees may be written alike: zero stands for nothing as well, and a negative number looks
like a sign in front of a number. What is written is a tree of its own, of names, numbers without a
sign, signs and groups, and its text determines that tree, even in front of further text. Whatever
is written as the same tree has the same value and the same faults.
-/

namespace Tortoise

namespace Text

/-- The name of a variable of a program: an identifier, or the counter of a repeat block. -/
def IsName (name : Text) : Prop := name.isIdentifier = true ∨ ∃ depth, name = counterName depth

def AtStop (rest : Text) : Prop :=
  ∀ r ∈ rest.head?, r.isWord = false ∧ r.isAsciiDigit = false

variable {t u rest rest' : Text}

/-- A run of a class of runes ends where the class does. -/
theorem append_inj_of_class {p : Rune → Bool} (ht : ∀ r ∈ t, p r = true)
    (hu : ∀ r ∈ u, p r = true) (hrest : ∀ r ∈ rest.head?, p r = false)
    (hrest' : ∀ r ∈ rest'.head?, p r = false) (h : t ++ rest = u ++ rest') :
    t = u ∧ rest = rest' := by
  have hnil {a b c : Text} (hmem : ∀ r ∈ a ++ b, p r = true)
      (hhead : ∀ r ∈ (b ++ c).head?, p r = false) : b = [] := by
    cases b with
    | nil => rfl
    | cons r b =>
        have hr := hhead r rfl
        rw [hmem r (by simp)] at hr
        cases hr
  rcases List.append_eq_append_iff.1 h with ⟨more, rfl, rfl⟩ | ⟨more, rfl, rfl⟩
  · obtain rfl := hnil hu hrest
    simp
  · obtain rfl := hnil ht hrest'
    simp

theorem exists_ofNat_cons (n : Nat) :
    ∃ r more, ofString (ofNat n) = r :: more ∧ r.isAsciiDigit = true := by
  have hne : ofString (ofNat n) ≠ [] := by simp [ofString, ofNat, Nat.toDigits_ne_nil]
  obtain ⟨r, more, hcons⟩ := List.exists_cons_of_ne_nil hne
  exact ⟨r, more, hcons, isAsciiDigit_of_mem_ofNat (hcons ▸ List.mem_cons_self)⟩

theorem ofNat_append_inj {n m : Nat} (hrest : rest.AtStop) (hrest' : rest'.AtStop)
    (h : ofString (ofNat n) ++ rest = ofString (ofNat m) ++ rest') : n = m ∧ rest = rest' := by
  obtain ⟨hdigits, heq⟩ := append_inj_of_class (p := Rune.isAsciiDigit)
    (fun _ => isAsciiDigit_of_mem_ofNat) (fun _ => isAsciiDigit_of_mem_ofNat)
    (fun r hr => (hrest r hr).2) (fun r hr => (hrest' r hr).2) h
  have hvalue := congrArg numeralValue hdigits
  rw [numeralValue_ofNat, numeralValue_ofNat] at hvalue
  exact ⟨hvalue, heq⟩

theorem ofInt_of_neg {n : Int} (hn : n < 0) :
    ofString (ofInt n) = .char '-' :: ofString (ofNat n.natAbs) := by
  rw [ofInt, if_pos hn]
  simp [ofString]

theorem ofInt_of_nonneg {n : Int} (hn : ¬ n < 0) :
    ofString (ofInt n) = ofString (ofNat n.natAbs) := by
  rw [ofInt, if_neg hn]

theorem ofInt_append_inj {n m : Int} (hrest : rest.AtStop) (hrest' : rest'.AtStop)
    (h : ofString (ofInt n) ++ rest = ofString (ofInt m) ++ rest') : n = m ∧ rest = rest' := by
  have hminus (k : Nat) (more more' : Text) :
      .char '-' :: more ≠ ofString (ofNat k) ++ more' := by
    obtain ⟨r, tail, hcons, hr⟩ := exists_ofNat_cons k
    rw [hcons]
    intro heq
    obtain ⟨rfl, -⟩ := List.cons.inj heq
    exact absurd hr (by decide)
  by_cases hn : n < 0 <;> by_cases hm : m < 0
  · rw [ofInt_of_neg hn, ofInt_of_neg hm] at h
    obtain ⟨habs, heq⟩ := ofNat_append_inj hrest hrest' (List.cons.inj h).2
    exact ⟨by omega, heq⟩
  · rw [ofInt_of_neg hn, ofInt_of_nonneg hm] at h
    exact absurd h (hminus _ _ _)
  · rw [ofInt_of_nonneg hn, ofInt_of_neg hm] at h
    exact absurd h.symm (hminus _ _ _)
  · rw [ofInt_of_nonneg hn, ofInt_of_nonneg hm] at h
    obtain ⟨habs, heq⟩ := ofNat_append_inj hrest hrest' h
    exact ⟨by omega, heq⟩

theorem isBlank_of_mem_ofNat {n : Nat} {r : Rune} (h : r ∈ ofString (ofNat n)) :
    r.isBlank = false :=
  Rune.isBlank_eq_false_of_isAsciiDigit (isAsciiDigit_of_mem_ofNat h)

theorem isBlank_of_mem_ofInt {n : Int} {r : Rune} (h : r ∈ ofString (ofInt n)) :
    r.isBlank = false := by
  by_cases hn : n < 0
  · rw [ofInt_of_neg hn, List.mem_cons] at h
    rcases h with rfl | h
    · decide
    · exact isBlank_of_mem_ofNat h
  · rw [ofInt_of_nonneg hn] at h
    exact isBlank_of_mem_ofNat h

theorem counterName_eq (depth : Int) :
    counterName depth = ofString "#repeat" ++ ofString (ofInt depth) := by
  simp [counterName, ofString]

namespace IsName

theorem append_inj (ht : t.IsName) (hu : u.IsName) (hrest : rest.AtStop)
    (hrest' : rest'.AtStop) (h : t ++ rest = u ++ rest') : t = u ∧ rest = rest' := by
  have hcounter {depth : Int} {name more more' : Text} (hname : name.isIdentifier = true) :
      counterName depth ++ more ≠ name ++ more' := by
    have hne : name ≠ [] := List.isEmpty_eq_false_iff.1 (ne_nil_of_isIdentifier hname)
    obtain ⟨r, tail, rfl⟩ := List.exists_cons_of_ne_nil hne
    rw [counterName_eq]
    intro heq
    obtain ⟨rfl, -⟩ := List.cons.inj heq
    rw [isIdentifier, Bool.and_eq_true] at hname
    exact absurd hname.1 (by decide)
  rcases ht with ht | ⟨depth, rfl⟩ <;> rcases hu with hu | ⟨depth', rfl⟩
  · exact append_inj_of_class (Expr.isWord_of_mem_identifier ht) (Expr.isWord_of_mem_identifier hu)
      (fun r hr => (hrest r hr).1) (fun r hr => (hrest' r hr).1) h
  · exact absurd h.symm (hcounter ht)
  · exact absurd h (hcounter hu)
  · rw [counterName_eq, counterName_eq, List.append_assoc, List.append_assoc] at h
    obtain ⟨rfl, heq⟩ := ofInt_append_inj hrest hrest' (List.append_cancel_left h)
    exact ⟨rfl, heq⟩

theorem isBlank_of_mem (ht : t.IsName) : ∀ r ∈ t, r.isBlank = false := by
  intro r hr
  rcases ht with ht | ⟨depth, rfl⟩
  · exact Rune.isBlank_eq_false_of_isWord (Expr.isWord_of_mem_identifier ht r hr)
  · rw [counterName_eq, List.mem_append] at hr
    rcases hr with hr | hr
    · exact (by decide : ∀ r ∈ ofString "#repeat", r.isBlank = false) r hr
    · exact isBlank_of_mem_ofInt hr

end IsName

end Text

inductive Written where
  | number (n : Nat)
  | name (t : Text)
  | sign (op : Prefix) (operand : Written)
  | group (op : Infix) (left right : Written)

namespace Written

def text : Written → Text
  | number n => Text.ofNat n
  | name t => t
  | sign op w => op.spelling ++ w.text
  | group op l r => "(" ++ l.text ++ Expr.infixSign op ++ r.text ++ ")"

def Legible : Written → Prop
  | number _ => True
  | name t => t.IsName
  | sign op w => op.isKnown = true ∧ w.Legible
  | group op l r => op.isKnown = true ∧ l.Legible ∧ r.Legible

inductive Form where
  | number
  | name
  | sign
  | group

def form : Written → Form
  | number _ => .number
  | name _ => .name
  | sign _ _ => .sign
  | group _ _ _ => .group

def formOf (r : Rune) : Form :=
  if r.isAsciiDigit then .number
  else if r.is '-' || r.is '!' then .sign
  else if r.is '(' then .group
  else .name

variable {w w' : Written}

theorem formOf_of_isUpper {r : Rune} (h : r.isUpper = true) : formOf r = .name := by
  have hother (c : Char) (hc : (Rune.char c).isUpper = false) : r.is c = false := by
    refine beq_eq_false_iff_ne.2 ?_
    rintro rfl
    rw [h] at hc
    cases hc
  have hdigit : r.isAsciiDigit = false := by
    cases hd : r.isAsciiDigit with
    | false => rfl
    | true => rw [Rune.isUpper_eq_false_of_isAsciiDigit hd] at h; cases h
  simp [formOf, hdigit, hother '-' (by decide), hother '!' (by decide), hother '(' (by decide)]

theorem exists_text_cons (hw : w.Legible) : ∃ r more, w.text = r :: more ∧ formOf r = w.form := by
  cases w with
  | number n =>
      obtain ⟨r, more, hcons, hr⟩ := Text.exists_ofNat_cons n
      exact ⟨r, more, hcons, by simp [formOf, hr, form]⟩
  | name t =>
      rcases hw with ht | ⟨depth, rfl⟩
      · cases t with
        | nil => cases ht
        | cons r tail =>
            rw [Text.isIdentifier, Bool.and_eq_true] at ht
            exact ⟨r, tail, rfl, formOf_of_isUpper ht.1⟩
      · exact ⟨.char '#', _, Text.counterName_eq depth, rfl⟩
  | sign op w =>
      cases op with
      | negate => exact ⟨.char '-', w.text, rfl, rfl⟩
      | complement => exact ⟨.char '!', w.text, rfl, rfl⟩
      | unknown spelling foreign => cases hw.1
  | group op l r => exact ⟨.char '(', _, by simp only [text, List.append_assoc]; rfl, rfl⟩

theorem form_eq (hw : w.Legible) (hw' : w'.Legible) {rest rest' : Text}
    (h : w.text ++ rest = w'.text ++ rest') : w.form = w'.form := by
  obtain ⟨r, more, htext, hr⟩ := exists_text_cons hw
  obtain ⟨r', more', htext', hr'⟩ := exists_text_cons hw'
  rw [htext, htext'] at h
  obtain ⟨rfl, -⟩ := List.cons.inj h
  exact hr.symm.trans hr'

theorem sign_append_inj {op op' : Prefix} (hop : op.isKnown = true) (hop' : op'.isKnown = true)
    {rest rest' : Text} (h : op.spelling ++ rest = op'.spelling ++ rest') :
    op = op' ∧ rest = rest' := by
  cases op with
  | unknown => cases hop
  | negate | complement =>
      cases op' with
      | unknown => cases hop'
      | negate | complement =>
          obtain ⟨hhead, htail⟩ := List.cons.inj h
          first | exact ⟨rfl, htail⟩ | exact absurd hhead (by decide)

/-- The sign of a known operator is one rune, and it tells the operator. -/
theorem exists_infixSign {op : Infix} (hop : op.isKnown = true) :
    ∃ c, Expr.infixSign op = [.char c] ∧ (Rune.char c).isWord = false ∧
      (Rune.char c).isAsciiDigit = false ∧ (Rune.char c).isBlank = false := by
  cases op with
  | unknown => cases hop
  | _ => exact ⟨_, rfl, by decide, by decide, by decide⟩

theorem infixSign_inj {op op' : Infix} (hop : op.isKnown = true) (hop' : op'.isKnown = true)
    (h : Expr.infixSign op = Expr.infixSign op') : op = op' := by
  have hknown : ∀ op : Infix, op.isKnown = true →
      op ∈ [Infix.add, .sub, .mul, .div, .equal, .greater, .less, .and, .or] := by
    rintro (_ | _) hop <;> first | decide | cases hop
  have hall : ∀ op ∈ [Infix.add, .sub, .mul, .div, .equal, .greater, .less, .and, .or],
      ∀ op' ∈ [Infix.add, .sub, .mul, .div, .equal, .greater, .less, .and, .or],
        Expr.infixSign op = Expr.infixSign op' → op = op' := by decide
  exact hall op (hknown op hop) op' (hknown op' hop') h

theorem infixSign_append_inj {op op' : Infix} (hop : op.isKnown = true) (hop' : op'.isKnown = true)
    {rest rest' : Text} (h : Expr.infixSign op ++ rest = Expr.infixSign op' ++ rest') :
    op = op' ∧ rest = rest' := by
  obtain ⟨c, hc, -⟩ := exists_infixSign hop
  obtain ⟨c', hc', -⟩ := exists_infixSign hop'
  rw [hc, hc'] at h
  obtain ⟨hhead, htail⟩ := List.cons.inj h
  exact ⟨infixSign_inj hop hop' (by rw [hc, hc', hhead]), htail⟩

theorem atStop_infixSign {op : Infix} (hop : op.isKnown = true) (rest : Text) :
    Text.AtStop (Expr.infixSign op ++ rest) := by
  obtain ⟨c, hc, hword, hdigit, -⟩ := exists_infixSign hop
  rw [hc]
  rintro r ⟨⟩
  exact ⟨hword, hdigit⟩

theorem text_group (op : Infix) (l r : Written) (rest : Text) : (group op l r).text ++ rest =
    .char '(' :: (l.text ++ (Expr.infixSign op ++ (r.text ++ .char ')' :: rest))) := by
  have hopen : Text.ofString "(" = [.char '('] := rfl
  have hclose : Text.ofString ")" = [.char ')'] := rfl
  simp [text, hopen, hclose]

/-- Trees whose texts agree as far as they go are the same, and so is what follows. -/
theorem text_append_inj (hw : w.Legible) (hw' : w'.Legible) {rest rest' : Text}
    (hrest : rest.AtStop) (hrest' : rest'.AtStop) (h : w.text ++ rest = w'.text ++ rest') :
    w = w' ∧ rest = rest' := by
  have hclose (rest : Text) : Text.AtStop (.char ')' :: rest) := by
    rintro r ⟨⟩
    decide
  induction w generalizing w' rest rest' with
  | number n =>
      have hform := form_eq hw hw' h
      cases w' with
      | number m =>
          obtain ⟨rfl, heq⟩ := Text.ofNat_append_inj hrest hrest' h
          exact ⟨rfl, heq⟩
      | name | sign | group => cases hform
  | name t =>
      have hform := form_eq hw hw' h
      cases w' with
      | name u =>
          obtain ⟨rfl, heq⟩ := Text.IsName.append_inj hw hw' hrest hrest' h
          exact ⟨rfl, heq⟩
      | number | sign | group => cases hform
  | sign op w ih =>
      have hform := form_eq hw hw' h
      cases w' with
      | sign op' w' =>
          rw [text, text, List.append_assoc, List.append_assoc] at h
          obtain ⟨rfl, htail⟩ := sign_append_inj hw.1 hw'.1 h
          obtain ⟨rfl, heq⟩ := ih hw.2 hw'.2 hrest hrest' htail
          exact ⟨rfl, heq⟩
      | number | name | group => cases hform
  | group op l r ihl ihr =>
      have hform := form_eq hw hw' h
      cases w' with
      | group op' l' r' =>
          rw [text_group, text_group] at h
          obtain ⟨rfl, hbehind⟩ := ihl hw.2.1 hw'.2.1 (atStop_infixSign hw.1 _)
            (atStop_infixSign hw'.1 _) (List.cons.inj h).2
          obtain ⟨rfl, hright⟩ := infixSign_append_inj hw.1 hw'.1 hbehind
          obtain ⟨rfl, hclosed⟩ := ihr hw.2.2 hw'.2.2 (hclose _) (hclose _) hright
          exact ⟨rfl, (List.cons.inj hclosed).2⟩
      | number | name | sign => cases hform

theorem isBlank_of_mem_text (hw : w.Legible) : ∀ r ∈ w.text, r.isBlank = false := by
  induction w with
  | number n => exact fun r => Text.isBlank_of_mem_ofNat
  | name t => exact Text.IsName.isBlank_of_mem hw
  | sign op w ih =>
      have hsign : ∀ r ∈ op.spelling, r.isBlank = false := by
        cases op with
        | unknown => cases hw.1
        | negate | complement => decide
      exact List.forall_mem_append.2 ⟨hsign, ih hw.2⟩
  | group op l r ihl ihr =>
      obtain ⟨c, hc, -, -, hblank⟩ := exists_infixSign hw.1
      have hparens : (Rune.char '(').isBlank = false ∧ (Rune.char ')').isBlank = false := by decide
      have htext := text_group op l r []
      rw [List.append_nil] at htext
      simp only [htext, hc, List.forall_mem_cons, List.forall_mem_append]
      exact ⟨hparens.1, ihl hw.2.1, ⟨hblank, nofun⟩, ihr hw.2.2, hparens.2, nofun⟩

end Written

namespace Expr

def written : Expr → Written
  | absent | null | foreign _ => .number 0
  | literal v =>
    if v.toInt < 0 then .sign .negate (.number v.toInt.natAbs) else .number v.toInt.natAbs
  | var name => .name name
  | unary op e => .sign op e.written
  | binary op l r => .group op l.written r.written

theorem text_written (e : Expr) : e.written.text = e.render := by
  induction e with
  | absent | null | foreign => rfl
  | literal v =>
      by_cases hv : v.toInt < 0
      · rw [written, if_pos hv, render, Text.ofInt64, Text.ofInt_of_neg hv]
        rfl
      · rw [written, if_neg hv, render, Text.ofInt64, Text.ofInt_of_nonneg hv]
        rfl
  | var name => rfl
  | unary op e ih => rw [written, Written.text, ih, render]
  | binary op l r ihl ihr => rw [written, Written.text, ihl, ihr, render]

structure Legible (e : Expr) : Prop where
  isComplete : e.isComplete = true
  isName : ∀ name ∈ e.vars, name.IsName

variable {e e' : Expr}

theorem Legible.written (h : e.Legible) : e.written.Legible := by
  obtain ⟨hcomplete, hnames⟩ := h
  induction e with
  | absent | foreign => cases hcomplete
  | null => trivial
  | literal v =>
      rw [Expr.written]
      split
      · exact ⟨rfl, trivial⟩
      · trivial
  | var name => exact hnames name (List.mem_singleton_self name)
  | unary op e ih =>
      rw [Expr.isComplete, Bool.and_eq_true] at hcomplete
      exact ⟨hcomplete.1, ih hcomplete.2 hnames⟩
  | binary op l r ihl ihr =>
      rw [Expr.isComplete, Bool.and_eq_true, Bool.and_eq_true] at hcomplete
      obtain ⟨hleft, hright⟩ := List.forall_mem_append.1 hnames
      exact ⟨hcomplete.1.1, ihl hcomplete.1.2 hleft, ihr hcomplete.2 hright⟩

theorem ofNat_natAbs {v : Int64} (hv : ¬ v.toInt < 0) : Int64.ofNat v.toInt.natAbs = v := by
  have hvalue : (v.toInt.natAbs : Int) = v.toInt := by omega
  rw [← Int64.ofInt_eq_ofNat, hvalue, Int64.ofInt_toInt]

-- The least number of all has no opposite, but it is its own one.
theorem neg_ofNat_natAbs {v : Int64} (hv : v.toInt < 0) : -Int64.ofNat v.toInt.natAbs = v := by
  have hvalue : -(v.toInt.natAbs : Int) = v.toInt := by omega
  rw [Int64.neg_ofNat, hvalue, Int64.ofInt_toInt]

theorem eval_of_written_number {n : Nat} (h : e.written = .number n) (env : Valuation) :
    e.eval env = (Int64.ofNat n, []) := by
  cases e with
  | absent | null | foreign =>
      obtain rfl := Written.number.inj h
      rfl
  | literal v =>
      rw [written] at h
      split at h
      · cases h
      next hv => rw [eval, ← Written.number.inj h, ofNat_natAbs hv]
  | var | unary | binary => cases h

theorem eval_negate_of_written {v : Int64} (hv : v.toInt < 0)
    (h : e.written = .number v.toInt.natAbs) (env : Valuation) :
    (unary .negate e).eval env = (v, []) := by
  simp only [eval, eval_of_written_number h, neg_ofNat_natAbs hv]

/-- What is written with a sign has one, or it is a number below zero. -/
theorem written_eq_sign {op : Prefix} {w : Written} (h : e.written = .sign op w) :
    (∃ v : Int64, v.toInt < 0 ∧ e = .literal v ∧ op = .negate ∧ w = .number v.toInt.natAbs) ∨
      ∃ operand, e = .unary op operand ∧ operand.written = w := by
  cases e with
  | literal v =>
      rw [written] at h
      split at h
      next hv =>
        obtain ⟨rfl, rfl⟩ := Written.sign.inj h
        exact .inl ⟨v, hv, rfl, rfl, rfl⟩
      · cases h
  | unary op' operand =>
      obtain ⟨rfl, rfl⟩ := Written.sign.inj h
      exact .inr ⟨operand, rfl, rfl⟩
  | absent | null | foreign | var | binary => cases h

/-- What is written alike has the same value and the same faults. -/
theorem eval_of_written (h : e.written = e'.written) (env : Valuation) :
    e.eval env = e'.eval env := by
  have hliteral {v : Int64} {f : Expr} (hf : (literal v).written = f.written) :
      (literal v).eval env = f.eval env := by
    by_cases hv : v.toInt < 0
    · rw [written, if_pos hv] at hf
      obtain ⟨v', hv', rfl, -, hnumber⟩ | ⟨operand, rfl, hoperand⟩ := written_eq_sign hf.symm
      · rw [eval, eval, ← neg_ofNat_natAbs hv, Written.number.inj hnumber, neg_ofNat_natAbs hv']
      · rw [eval, eval_negate_of_written hv hoperand]
    · rw [written, if_neg hv] at hf
      rw [eval_of_written_number hf.symm, eval, ofNat_natAbs hv]
  induction e generalizing e' with
  | absent | null | foreign =>
      rw [eval_of_written_number rfl, eval_of_written_number h.symm]
  | literal v => exact hliteral h
  | var name =>
      cases e' with
      | var name' => rw [Written.name.inj h]
      | literal v => exact (hliteral h.symm).symm
      | absent | null | foreign | unary | binary => cases h
  | unary op e ih =>
      obtain ⟨v, hv, rfl, rfl, hnumber⟩ | ⟨operand, rfl, hoperand⟩ := written_eq_sign h.symm
      · rw [eval_negate_of_written hv hnumber, eval]
      · cases op <;> simp only [eval, ih hoperand.symm]
  | binary op l r ihl ihr =>
      cases e' with
      | binary op' l' r' =>
          obtain ⟨rfl, hleft, hright⟩ := Written.group.inj h
          have hrender : (binary op l r).render = (binary op l' r').render := by
            rw [← text_written, ← text_written, h]
          cases op <;> simp only [eval, ihl hleft, ihr hright, hrender]
      | literal v => exact (hliteral h.symm).symm
      | absent | null | foreign | var | unary => cases h

/-- The text of a legible expression determines its value and its faults. -/
theorem Legible.eval_of_render (h : e.Legible) (h' : e'.Legible) (hrender : e.render = e'.render)
    (env : Valuation) : e.eval env = e'.eval env := by
  have hstop : Text.AtStop [] := nofun
  rw [← text_written, ← text_written] at hrender
  have htexts := congrArg (· ++ []) hrender
  exact eval_of_written (Written.text_append_inj h.written h'.written hstop hstop htexts).1 env

theorem Legible.isBlank_of_mem_render (h : e.Legible) : ∀ r ∈ e.render, r.isBlank = false := by
  rw [← text_written]
  exact Written.isBlank_of_mem_text h.written

end Expr

end Tortoise
