import Tortoise.Proofs.Expr.Rendering

/-!
# Blanks next to signs

At either end of a text, and next to a parenthesis or to the sign of an operator, a blank may be
written or left out. Elsewhere it may not: it would cut an element in two, or part a word operator
from the word that it touches. `Respaced s t` says that such a blank is the only difference between
two texts. It is followed into the operands of a derivation, in both directions at once, and the
grammar derives the same trees from both texts.
-/

namespace Tortoise.Expr

open Text (Blank)

def signs : Text := "()+-*/=><!"

def NextToSign (a b : Text) : Prop :=
  a = [] ∨ b = [] ∨ (∃ r ∈ a.getLast?, r ∈ signs) ∨ ∃ r ∈ b.head?, r ∈ signs

/-- `t` is `s` with a blank more, at an end or next to a sign. -/
inductive Spaced : Text → Text → Prop
  | blank {a b : Text} {w : Rune} (hw : w.isBlank = true) (hplace : NextToSign a b) :
      Spaced (a ++ b) (a ++ w :: b)

def Respaced (s t : Text) : Prop := Spaced s t ∨ Spaced t s

section Places

variable {a b c l m r s t : Text}

theorem isWord_of_mem_signs {x : Rune} (h : x ∈ signs) : x.isWord = false :=
  (by decide : ∀ x ∈ signs, x.isWord = false) x h

theorem NextToSign.of_append_right (h : NextToSign a (c ++ r)) : NextToSign a c := by
  cases c with
  | nil => exact .inr (.inl rfl)
  | cons x c =>
      rcases h with ha | hb | ha | hb
      · exact .inl ha
      · cases hb
      · exact .inr (.inr (.inl ha))
      · exact .inr (.inr (.inr hb))

theorem NextToSign.of_append_left (h : NextToSign (l ++ c) b) : NextToSign c b := by
  cases hc : c.getLast? with
  | none => exact .inl (List.getLast?_eq_none_iff.1 hc)
  | some x =>
      rcases h with ha | hb | ha | hb
      · exact .inl (List.append_eq_nil_iff.1 ha).2
      · exact .inr (.inl hb)
      · rw [List.getLast?_append, hc, Option.some_or, ← hc] at ha
        exact .inr (.inr (.inl ha))
      · exact .inr (.inr (.inr hb))

/-- Next to a sign no word runs on. -/
theorem NextToSign.seam (h : NextToSign a b) : Seam a.getLast? b := by
  rcases h with rfl | rfl | ⟨x, hx, hsign⟩ | ⟨x, hx, hsign⟩
  · exact .inl rfl
  · exact .inr rfl
  · refine .inl ?_
    rw [Option.mem_def.1 hx, Option.any_some, isWord_of_mem_signs hsign]
  · refine .inr ?_
    rw [Option.mem_def.1 hx, Option.any_some, isWord_of_mem_signs hsign]

/-- A blank in a text of two parts is in one of them, and where it is at the seam, no word runs
across the seam without it. -/
theorem Respaced.append_cases (h : Respaced (l ++ r) t) :
    (∃ l', t = l' ++ r ∧ Respaced l l' ∧ (l'.getLast? = l.getLast? ∨ Seam l'.getLast? r)) ∨
      ∃ r', t = l ++ r' ∧ Respaced r r' ∧ (r'.head? = r.head? ∨ Seam l.getLast? r') := by
  have hlast (a c : Text) (w x : Rune) :
      (a ++ w :: x :: c).getLast? = (a ++ x :: c).getLast? := by
    simp [List.getLast?_append, List.getLast?_cons]
  generalize hs : l ++ r = s at h
  rcases h with h | h
  · cases h with
    | @blank a b w hw hplace =>
        have hword := Rune.isWord_eq_false_of_isBlank hw
        rcases List.append_eq_append_iff.1 hs with ⟨c, rfl, rfl⟩ | ⟨c, rfl, rfl⟩
        · refine .inr ⟨c ++ w :: b, by simp, .inl (.blank hw hplace.of_append_left), ?_⟩
          cases c with
          | nil => exact .inr (.inr (by simp [hword]))
          | cons x c => exact .inl rfl
        · refine .inl ⟨a ++ w :: c, by simp, .inl (.blank hw hplace.of_append_right), ?_⟩
          cases c with
          | nil => exact .inr (.inl (by simp [hword]))
          | cons x c => exact .inl (hlast a c w x)
  · cases h with
    | @blank a b w hw hplace =>
        rcases List.append_eq_append_iff.1 hs with ⟨c, rfl, rfl⟩ | ⟨c, rfl, hc⟩
        · refine .inr ⟨c ++ b, by simp, .inr (.blank hw hplace.of_append_left), ?_⟩
          cases c with
          | nil =>
              rw [List.append_nil] at hplace
              exact .inr hplace.seam
          | cons x c => exact .inl rfl
        · rcases List.cons_eq_append_iff.1 hc with ⟨rfl, rfl⟩ | ⟨c, rfl, rfl⟩
          · rw [List.append_nil] at hs ⊢
            exact .inr ⟨b, rfl, .inr (.blank (a := []) hw (.inl rfl)), .inr hplace.seam⟩
          · refine .inl ⟨a ++ c, by simp, .inr (.blank hw hplace.of_append_right), ?_⟩
            cases c with
            | nil =>
                rw [List.append_nil]
                exact .inr hplace.seam
            | cons x c => exact .inl (hlast a c w x).symm

structure Solid (m : Text) : Prop where
  not_blank : ∀ x ∈ m, x.isBlank = false
  whole : ∀ a b, m = a ++ b → NextToSign a b → a = [] ∨ b = []

theorem solid_singleton {x : Rune} (hx : x.isBlank = false) : Solid [x] := by
  refine ⟨List.forall_mem_singleton.2 hx, fun a b hm _ => ?_⟩
  rcases List.append_eq_singleton_iff.1 hm.symm with ⟨ha, -⟩ | ⟨-, hb⟩
  · exact .inl ha
  · exact .inr hb

theorem solid_of_forall (hblank : ∀ x ∈ m, x.isBlank = false) (hsign : ∀ x ∈ m, x ∉ signs) :
    Solid m := by
  refine ⟨hblank, ?_⟩
  rintro a b rfl (ha | hb | ⟨x, hx, hmem⟩ | ⟨x, hx, hmem⟩)
  · exact .inl ha
  · exact .inr hb
  · exact absurd hmem (hsign x (List.mem_append_left b (List.mem_of_getLast? hx)))
  · exact absurd hmem (hsign x (List.mem_append_right a (List.mem_of_head? hx)))

theorem solid_numeral (h : m.isNumeral = true) : Solid m := by
  simp only [Text.isNumeral, Bool.and_eq_true, List.all_eq_true] at h
  refine solid_of_forall (fun x hx => Rune.isBlank_eq_false_of_isAsciiDigit (h.2 x hx)) ?_
  intro x hx hmem
  have hdigit := (by decide : ∀ x ∈ signs, x.isAsciiDigit = false) x hmem
  rw [h.2 x hx] at hdigit
  cases hdigit

theorem solid_of_isWord (h : ∀ x ∈ m, x.isWord = true) : Solid m := by
  refine solid_of_forall (fun x hx => Rune.isBlank_eq_false_of_isWord (h x hx)) ?_
  intro x hx hmem
  have hword := isWord_of_mem_signs hmem
  rw [h x hx] at hword
  cases hword

theorem solid_unary {op : Prefix} (h : op.isKnown = true) : Solid op.spelling := by
  cases op with
  | unknown s foreign => simp [Prefix.isKnown] at h
  | _ => exact solid_singleton (by decide)

theorem solid_operator {op : Infix} (h : op.isKnown = true) : Solid op.spelling := by
  cases op with
  | unknown s foreign => simp [Infix.isKnown] at h
  | and => exact solid_of_isWord (by decide)
  | or => exact solid_of_isWord (by decide)
  | _ => exact solid_singleton (by decide)

/-- Only around a solid text can there be blanks more. -/
theorem Solid.exists_pad (hm : Solid m) (h : Respaced m t) :
    ∃ x y, Blank x ∧ Blank y ∧ t = x ++ m ++ y := by
  rcases h with h | h
  · cases h with
    | @blank a b w hw hplace =>
        have hblank : Blank [w] := List.forall_mem_singleton.2 hw
        rcases hm.whole a b rfl hplace with rfl | rfl
        · exact ⟨[w], [], hblank, Text.blank_nil, by simp⟩
        · exact ⟨[], [w], Text.blank_nil, hblank, by simp⟩
  · cases h with
    | @blank a b w hw hplace =>
        have hsolid := hm.not_blank w (by simp)
        rw [hw] at hsolid
        cases hsolid

theorem Respaced.blank (h : Respaced s t) (hs : Blank s) : Blank t := by
  rcases h with h | h
  · cases h with
    | @blank a b w hw hplace =>
        intro x hx
        rcases List.mem_append.1 hx with hx | hx
        · exact hs x (List.mem_append_left b hx)
        · rcases List.mem_cons.1 hx with rfl | hx
          · exact hw
          · exact hs x (List.mem_append_right a hx)
  · cases h with
    | @blank a b w hw hplace =>
        intro x hx
        rcases List.mem_append.1 hx with hx | hx
        · exact hs x (List.mem_append_left _ hx)
        · exact hs x (List.mem_append_right a (List.mem_cons_of_mem w hx))

/-- A change of a text with a solid core and blanks around it is one of the blanks. -/
theorem Respaced.exists_core {before after : Text} (hbefore : Blank before) (hafter : Blank after)
    (hm : Solid m) (h : Respaced (before ++ m ++ after) t) :
    ∃ x y, Blank x ∧ Blank y ∧ t = x ++ m ++ y := by
  obtain ⟨l, rfl, hl, -⟩ | ⟨r, rfl, hr, -⟩ := h.append_cases
  · obtain ⟨x, rfl, hx, -⟩ | ⟨core, rfl, hcore, -⟩ := hl.append_cases
    · exact ⟨x, after, hx.blank hbefore, hafter, rfl⟩
    · obtain ⟨x, y, hx, hy, rfl⟩ := hm.exists_pad hcore
      exact ⟨before ++ x, y ++ after, hbefore.append hx, hy.append hafter, by simp⟩
  · exact ⟨before, r, hbefore, hr.blank hafter, rfl⟩

end Places

section WordBreaks

variable {op : Infix} {left left' right right' x y : Text}

theorem isWord_ends_of_word (hop : op = .and ∨ op = .or) :
    op.spelling.head?.any Rune.isWord = true ∧ op.spelling.getLast?.any Rune.isWord = true := by
  rcases hop with rfl | rfl <;> decide

theorem WordBreak.respaced_left (h : WordBreak left right) (hop : op = .and ∨ op = .or)
    (hseam : left'.getLast? = left.getLast? ∨ Seam left'.getLast? op.spelling) :
    WordBreak left' right := by
  refine ⟨fun r hr => ?_, h.2⟩
  rcases hseam with hlast | hseam | hseam
  · exact h.1 r (hlast ▸ hr)
  · simpa [hr] using hseam
  · simp [(isWord_ends_of_word hop).1] at hseam

theorem WordBreak.respaced_right (h : WordBreak left right) (hop : op = .and ∨ op = .or)
    (hseam : right'.head? = right.head? ∨ Seam (left ++ op.spelling).getLast? right') :
    WordBreak left right' := by
  refine ⟨h.1, fun r hr => ?_⟩
  rcases hseam with hhead | hseam | hseam
  · exact h.2 r (hhead ▸ hr)
  · have hend := (isWord_ends_of_word hop).2
    obtain ⟨last, hlast, hword⟩ := (Option.any_eq_true _ _).1 hend
    simp [List.getLast?_append, hlast, hword] at hseam
  · simpa [hr] using hseam

/-- Blanks next to a word operator do not touch it as words do. -/
theorem WordBreak.pad (h : WordBreak left right) (hx : Blank x) (hy : Blank y) :
    WordBreak ([] ++ left ++ x) (y ++ right ++ []) := by
  refine ⟨fun r hr => ?_, fun r hr => ?_⟩
  · rw [List.nil_append, List.getLast?_append] at hr
    cases hlast : x.getLast? with
    | none => exact h.1 r (by simpa [hlast] using hr)
    | some w =>
        obtain rfl : w = r := by simpa [hlast] using hr
        exact Rune.isWord_eq_false_of_isBlank (hx w (List.mem_of_getLast? hlast))
  · rw [List.append_nil, List.head?_append] at hr
    cases hhead : y.head? with
    | none => exact h.2 r (by simpa [hhead] using hr)
    | some w =>
        obtain rfl : w = r := by simpa [hhead] using hr
        exact Rune.isWord_eq_false_of_isBlank (hy w (List.mem_of_head? hhead))

end WordBreaks

/-- A change of a group is one of the blanks at its parentheses or one of its inside. -/
theorem Respaced.exists_group {inner t : Text}
    (h : Respaced (.char '(' :: inner ++ [.char ')']) t) :
    ∃ x inner' y, Blank x ∧ Blank y ∧ t = x ++ (.char '(' :: inner' ++ [.char ')']) ++ y ∧
      (Respaced inner inner' ∨ ∃ u v, Blank u ∧ Blank v ∧ inner' = u ++ inner ++ v) := by
  have hopen : Solid [.char '('] := solid_singleton (by decide)
  have hclose : Solid [.char ')'] := solid_singleton (by decide)
  obtain ⟨u, rfl, hu, -⟩ | ⟨u, rfl, hu, -⟩ := h.append_cases
  · rw [← List.singleton_append] at hu
    obtain ⟨front, rfl, hfront, -⟩ | ⟨inner', rfl, hinner, -⟩ := hu.append_cases
    · obtain ⟨x, y, hx, hy, rfl⟩ := hopen.exists_pad hfront
      exact ⟨x, y ++ inner, [], hx, Text.blank_nil, by simp,
        .inr ⟨y, [], hy, Text.blank_nil, by simp⟩⟩
    · exact ⟨[], inner', [], Text.blank_nil, Text.blank_nil, by simp, .inl hinner⟩
  · obtain ⟨x, y, hx, hy, rfl⟩ := hclose.exists_pad hu
    exact ⟨[], inner ++ x, y, Text.blank_nil, hy, by simp,
      .inr ⟨[], x, Text.blank_nil, hx, by simp⟩⟩

/-- The grammar does not see blanks next to signs. -/
theorem Derives.respaced {level : Level} {s t : Text} {e : Expr} (h : Derives level s e)
    (hs : Respaced s t) : Derives level t e := by
  induction h generalizing t with
  | operand _ ih => exact .operand (ih hs)
  | @chain level op left right a b hop hbreak hl hr ihl ihr =>
      obtain ⟨u, rfl, hu, -⟩ | ⟨right', rfl, hright, hseam⟩ := hs.append_cases
      · obtain ⟨left', rfl, hleft, hseam⟩ | ⟨sign, rfl, hsign, -⟩ := hu.append_cases
        · exact .chain hop (fun hword => (hbreak hword).respaced_left hword hseam) (ihl hleft) hr
        · have hsolid := solid_operator (isKnown_of_mem_operators hop)
          obtain ⟨x, y, hx, hy, rfl⟩ := hsolid.exists_pad hsign
          have hassoc : left ++ (x ++ op.spelling ++ y) ++ right =
              ([] ++ left ++ x) ++ op.spelling ++ (y ++ right ++ []) := by simp
          rw [hassoc]
          exact .chain hop (fun hword => (hbreak hword).pad hx hy) (hl.pad Text.blank_nil hx)
            (hr.pad hy Text.blank_nil)
      · exact .chain hop (fun hword => (hbreak hword).respaced_right hword hseam) hl (ihr hright)
  | @sign op before source e hop hbefore hsource ih =>
      obtain ⟨u, rfl, hu, -⟩ | ⟨source', rfl, hsource', -⟩ := hs.append_cases
      · rw [← List.append_nil (before ++ op.spelling)] at hu
        obtain ⟨x, y, hx, hy, rfl⟩ := hu.exists_core hbefore Text.blank_nil (solid_unary hop)
        have hassoc : x ++ op.spelling ++ y ++ source =
            x ++ op.spelling ++ (y ++ source ++ []) := by
          simp
        rw [hassoc]
        exact .sign hop hx (hsource.pad hy Text.blank_nil)
      · exact .sign hop hbefore (ih hsource')
  | number hbefore hafter hdigits hvalue =>
      obtain ⟨x, y, hx, hy, rfl⟩ := hs.exists_core hbefore hafter (solid_numeral hdigits)
      exact .number hx hy hdigits hvalue
  | identifier hbefore hafter hname =>
      have hsolid := solid_of_isWord (isWord_of_mem_identifier hname)
      obtain ⟨x, y, hx, hy, rfl⟩ := hs.exists_core hbefore hafter hsolid
      exact .identifier hx hy hname
  | @group before inner after e hbefore hafter hinner ih =>
      obtain ⟨u, rfl, hu, -⟩ | ⟨after', rfl, hafter', -⟩ := hs.append_cases
      · obtain ⟨before', rfl, hbefore', -⟩ | ⟨g, rfl, hg, -⟩ := hu.append_cases
        · exact .group (hbefore'.blank hbefore) hafter hinner
        · obtain ⟨x, inner', y, hx, hy, rfl, hinner'⟩ := hg.exists_group
          have hread : Derives .logic inner' e := by
            rcases hinner' with hinner' | ⟨front, back, hfront, hback, rfl⟩
            · exact ih hinner'
            · exact hinner.pad hfront hback
          have hgroup := Derives.group (hbefore.append hx) (hy.append hafter) hread
          simpa only [List.append_assoc] using hgroup
      · exact .group hbefore (hafter'.blank hafter) hinner

/-- At its ends and next to a parenthesis or the sign of an operator, an expression may have a blank
more. It gives the same tree, or none in both cases, unless one of the two texts is too long. -/
theorem blanks_next_to_signs_are_free {bound : Nat} {a b : Text} {w : Rune}
    (hw : w.isBlank = true) (hplace : NextToSign a b) (hsize : Text.size (a ++ b) ≤ bound)
    (hspaced : Text.size (a ++ w :: b) ≤ bound) :
    (parse bound (a ++ w :: b)).toOption = (parse bound (a ++ b)).toOption := by
  have hchange : Spaced (a ++ b) (a ++ w :: b) := .blank hw hplace
  have hiff (e : Expr) : parse bound (a ++ w :: b) = .ok e ↔ parse bound (a ++ b) = .ok e := by
    rw [parse_eq_ok_iff, parse_eq_ok_iff, and_iff_right hsize, and_iff_right hspaced]
    exact ⟨fun h => h.respaced (.inr hchange), fun h => h.respaced (.inl hchange)⟩
  cases hparse : parse bound (a ++ b) with
  | ok e => rw [(hiff e).2 hparse]
  | error e =>
      cases hother : parse bound (a ++ w :: b) with
      | ok e' =>
          rw [(hiff e').1 hother] at hparse
          cases hparse
      | error e' => rfl

/-- A wide blank between a sign and a group behind a word operator; the wide blank counts three
bytes. -/
theorem wide_blank_behind_sign :
    ∃ e, parse 16 "(A)and-\u3000(B+1)" = .ok e ∧ parse 16 "(A)and-(B+1)" = .ok e ∧
      e.render = Text.ofString "(A&-(B+1))" := by
  have h : parse 16 "(A)and-(B+1)" = .ok (.binary .and (.var "A")
      (.unary .negate (.binary .add (.var "B") (.literal 1)))) := by decide +kernel
  have hsame := @blanks_next_to_signs_are_free 16 "(A)and-" "(B+1)" (.char '\u3000') (by decide)
    (.inr (.inr (.inl ⟨.char '-', rfl, by decide⟩))) (by decide) (by decide)
  change (parse 16 "(A)and-\u3000(B+1)").toOption = (parse 16 "(A)and-(B+1)").toOption at hsame
  rw [h] at hsame
  cases hparse : parse 16 "(A)and-\u3000(B+1)" with
  | error error =>
      rw [hparse] at hsame
      cases hsame
  | ok e =>
      rw [hparse] at hsame
      obtain rfl := Option.some.inj hsame
      exact ⟨_, rfl, h, by decide⟩

end Tortoise.Expr
