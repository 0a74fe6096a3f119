import Tortoise.Proofs.Expr.Plain
import Mathlib.Control.Monad.Basic

/-!
# Written expressions read back

A written tree has parentheses around everything with two sides and none anywhere else, and the
signs `&` and `|` for the two word operators, which no program can write. With these spelled out as
words between blanks, a tree that was read from some text derives from its own writing. So the
writing is never ambiguous: not next to a sign, and not where a minus meets a minus.
-/

namespace Tortoise

namespace Text

def spellOut (r : Rune) : Text :=
  if r.is '&' then " and " else if r.is '|' then " or " else [r]

/-- The text with every `&` written as `and` and every `|` as `or`. -/
def spelledOut (t : Text) : Text := t.flatMap spellOut

@[simp] theorem spelledOut_append (t u : Text) :
    spelledOut (t ++ u) = spelledOut t ++ spelledOut u :=
  List.flatMap_append

/-- A text of a class that has neither sign stays as it is. -/
theorem spelledOut_of_class {p : Rune → Bool} (hand : p (.char '&') = false)
    (hor : p (.char '|') = false) {t : Text} (h : ∀ r ∈ t, p r = true) : spelledOut t = t := by
  induction t with
  | nil => rfl
  | cons r t ih =>
      obtain ⟨hr, ht⟩ := List.forall_mem_cons.1 h
      have hother (c : Char) (hc : p (.char c) = false) : r.is c = false := by
        refine beq_eq_false_iff_ne.2 ?_
        rintro rfl
        rw [hr] at hc
        cases hc
      have hself : spellOut r = [r] := by simp [spellOut, hother '&' hand, hother '|' hor]
      change spellOut r ++ spelledOut t = r :: t
      rw [hself, ih ht, List.singleton_append]

theorem isAsciiDigit_of_mem_ofNat {n : Nat} {r : Rune} (h : r ∈ ofString (ofNat n)) :
    r.isAsciiDigit = true := by
  simp only [ofString, ofNat, String.toList_ofList, List.mem_map] at h
  obtain ⟨c, hc, rfl⟩ := h
  exact Nat.isDigit_of_mem_toDigits (by decide) (by decide) hc

theorem isNumeral_ofNat (n : Nat) : isNumeral (ofNat n) = true := by
  have hne : ofString (ofNat n) ≠ [] := by simp [ofString, ofNat, Nat.toDigits_ne_nil]
  simp only [isNumeral, Bool.and_eq_true, Bool.not_eq_true', List.isEmpty_eq_false_iff,
    List.all_eq_true]
  exact ⟨hne, fun r hr => isAsciiDigit_of_mem_ofNat hr⟩

/-- A number that is written down is read as itself. -/
theorem numeralValue_ofNat (n : Nat) : numeralValue (ofNat n) = n := by
  have hdigits : ∀ (digits : List Char) (value : Nat), (∀ c ∈ digits, c.isDigit = true) →
      (digits.map Rune.char).foldl (fun n r => 10 * n + r.digitValue) value =
        Nat.ofDigitChars 10 digits value := by
    intro digits
    induction digits with
    | nil => exact fun value _ => rfl
    | cons c digits ih =>
        intro value hall
        obtain ⟨hc, hrest⟩ := List.forall_mem_cons.1 hall
        have hvalue : (Rune.char c).digitValue = c.toNat - '0'.toNat := if_pos hc
        rw [List.map_cons, List.foldl_cons, hvalue, ih _ hrest]
        rfl
  have hmem : ∀ c ∈ Nat.toDigits 10 n, c.isDigit = true := fun c hc =>
    Nat.isDigit_of_mem_toDigits (by decide) (by decide) hc
  rw [numeralValue, ofString, ofNat, String.toList_ofList, hdigits _ 0 hmem,
    Nat.ofDigitChars_ten_toDigits]

end Text

namespace Expr

open Text (Blank spelledOut)

theorem render_ofNat {n : Nat} (hn : n ≤ 0x7fffffffffffffff) :
    (literal (Int64.ofNat n)).render = Text.ofNat n := by
  have hvalue : (Int64.ofNat n).toInt = n := Int64.toInt_ofNat_of_lt (by omega)
  have hsign : ¬ (n : Int) < 0 := by omega
  simp only [render, Text.ofInt64, Text.ofInt, hvalue, hsign, if_false, Int.natAbs_natCast]

theorem derives_ofNat {n : Nat} (hn : n ≤ 0x7fffffffffffffff) :
    Derives .atom (spelledOut (literal (Int64.ofNat n)).render) (literal (Int64.ofNat n)) := by
  have hplain : spelledOut (Text.ofString (Text.ofNat n)) = Text.ofNat n :=
    Text.spelledOut_of_class (p := Rune.isAsciiDigit) (by decide) (by decide) fun r hr =>
      Text.isAsciiDigit_of_mem_ofNat hr
  have hnumber := Derives.number Text.blank_nil Text.blank_nil (Text.isNumeral_ofNat n)
    (by rwa [Text.numeralValue_ofNat])
  rw [Text.numeralValue_ofNat, List.nil_append, List.append_nil] at hnumber
  rw [render_ofNat hn, hplain]
  exact hnumber

/-- Blanks around a text do not matter. -/
theorem Derives.pad {level : Level} {source before after : Text} {e : Expr}
    (h : Derives level source e) (hbefore : Blank before) (hafter : Blank after) :
    Derives level (before ++ source ++ after) e := by
  obtain ⟨b, core, a, hb, ha, -, rfl, hpad⟩ := h.exists_core
  have hassoc : before ++ (b ++ core ++ a) ++ after = (before ++ b) ++ core ++ (a ++ after) := by
    simp only [List.append_assoc]
  rw [hassoc]
  exact hpad _ _ (hbefore.append hb) (ha.append hafter)

/-- An operator with its operands around it, the words between blanks. -/
theorem Derives.join {level : Level} {op : Infix} {left right : Text} {a b : Expr}
    (hop : op ∈ level.operators) (hleft : Derives .unary left a) (hright : Derives .unary right b) :
    Derives level (left ++ spelledOut (infixSign op) ++ right) (.binary op a b) := by
  have hranks : level.tighter.rank ≤ Level.unary.rank ∧ level.rank ≤ Level.unary.rank := by
    cases level <;> first | decide | simp [Level.operators] at hop
  have hl := hleft.loosen hranks.1
  have hr := hright.loosen hranks.2
  by_cases hword : op = .and ∨ op = .or
  · have hblank : Blank [.char ' '] := List.forall_mem_singleton.2 (by decide)
    have hsign : spelledOut (infixSign op) = [.char ' '] ++ op.spelling ++ [.char ' '] := by
      rcases hword with rfl | rfl <;> rfl
    have hbreak : WordBreak ([] ++ left ++ [.char ' ']) ([.char ' '] ++ right ++ []) := by
      refine ⟨fun r hr => ?_, fun r hr => ?_⟩
      · rw [List.getLast?_append, List.getLast?_singleton, Option.some_or] at hr
        obtain rfl := Option.some.inj hr
        decide
      · obtain rfl := Option.some.inj hr
        decide
    have hchain := Derives.chain hop (fun _ => hbreak) (hl.pad Text.blank_nil hblank)
      (hr.pad hblank Text.blank_nil)
    rw [hsign]
    simpa using hchain
  · have hsign : spelledOut (infixSign op) = op.spelling := by
      cases op with
      | and => exact absurd (.inl rfl) hword
      | or => exact absurd (.inr rfl) hword
      | unknown s foreign => exact absurd (isKnown_of_mem_operators hop) (by simp [Infix.isKnown])
      | _ => rfl
    rw [hsign]
    exact .chain hop (fun h => absurd h hword) hl hr

/-- What has been read from a text is read from its own writing. -/
theorem Derives.spelledOut_render {level : Level} {source : Text} {e : Expr}
    (h : Derives level source e) : Derives .unary (spelledOut e.render) e := by
  induction h with
  | operand _ ih => exact ih
  | @chain level op _ _ a b hop _ _ _ ihl ihr =>
      have hloosest : Level.logic.rank ≤ level.rank := by cases level <;> decide
      have hgroup := Derives.group Text.blank_nil Text.blank_nil
        ((Derives.join hop ihl ihr).loosen hloosest)
      have hopen : spelledOut (Text.ofString "(") = [.char '('] := rfl
      have hclose : spelledOut (Text.ofString ")") = [.char ')'] := rfl
      refine .operand ?_
      simpa [render, hopen, hclose, Level.tighter] using hgroup
  | @sign op _ _ e hop _ _ ih =>
      have hspelling : spelledOut op.spelling = op.spelling := by
        cases op with
        | unknown s foreign => exact absurd hop (by simp [Prefix.isKnown])
        | _ => rfl
      rw [render, Text.spelledOut_append, hspelling]
      exact .sign hop Text.blank_nil ih
  | number _ _ _ hvalue => exact .operand (derives_ofNat hvalue)
  | @identifier _ name _ _ _ hname =>
      have hplain : spelledOut name = name :=
        Text.spelledOut_of_class (by decide) (by decide) (isWord_of_mem_identifier hname)
      have hatom := Derives.identifier Text.blank_nil Text.blank_nil hname
      rw [List.nil_append, List.append_nil] at hatom
      rw [render, hplain]
      exact .operand hatom
  | group _ _ _ ih => exact ih

theorem parse_spelledOut_render {bound limit : Nat} {source : Text} {e : Expr}
    (h : parse bound source = .ok e) (hlimit : (spelledOut e.render).size ≤ limit) :
    parse limit (spelledOut e.render) = .ok e := by
  have hderives := (parse_eq_ok_iff.1 h).2.spelledOut_render
  exact parse_eq_ok_iff.2 ⟨hlimit, hderives.loosen (by decide)⟩

/-- Writing and reading are inverse on the trees that reading gives: such a tree, written down with
its word operators spelled out, is read as the same tree wherever the text is short enough. So two
of these trees that are written alike are the same. -/
theorem rendering_reads_back {bound : Nat} {source : Text} {e : Expr}
    (h : parse bound source = .ok e) :
    (∀ limit, (spelledOut e.render).size ≤ limit → parse limit (spelledOut e.render) = .ok e) ∧
      ∀ (bound' : Nat) (source' : Text) (e' : Expr), parse bound' source' = .ok e' →
        e'.render = e.render → e' = e := by
  refine ⟨fun limit => parse_spelledOut_render h, fun bound' source' e' h' hrender => ?_⟩
  have hself := parse_spelledOut_render h' (Nat.le_refl _)
  rw [hrender, parse_spelledOut_render h (Nat.le_refl _)] at hself
  exact (Except.ok.inj hself).symm

/-- Signs in front of signs, a minus behind a minus and both words. -/
theorem mixed_signs_read_back :
    ∃ e, parse 256 "1 - -A or !!B and(C=7)" = .ok e ∧
      e.render = Text.ofString "((1--A)|(!!B&(C=7)))" ∧
      parse 256 "((1--A) or (!!B and (C=7)))" = .ok e := by
  have h : parse 256 "1 - -A or !!B and(C=7)" = .ok (.binary .or
      (.binary .sub (.literal 1) (.unary .negate (.var "A")))
      (.binary .and (.unary .complement (.unary .complement (.var "B")))
        (.binary .equal (.var "C") (.literal 7)))) := by decide +kernel
  refine ⟨_, h, by decide, ?_⟩
  exact (rendering_reads_back h).1 256 (by decide)

end Expr

end Tortoise
