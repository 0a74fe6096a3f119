import Tortoise.Proofs.Compile.Extent
import Tortoise.Proofs.Compile.Spacing
import Tortoise.Proofs.Expr.OuterLogic

/-!
# Assignments written as equations

`V=E` is one token, read as an expression and taken apart where it turns out to be an equation;
`V = E` is three. Both are the same program unless an `and` or `or` stands in `E` outside of
parentheses: it binds looser than the `=` before it, so that `V=E` is no equation and is refused.
-/

namespace Tortoise

open Text (Blank Word AtBlank)

theorem Text.exists_upper_of_isIdentifier {name : Text} (h : name.isIdentifier = true) :
    ∃ r rest, name = r :: rest ∧ r.isUpper = true := by
  cases name with
  | nil => simp [Text.isIdentifier] at h
  | cons r rest =>
      simp only [Text.isIdentifier, Bool.and_eq_true] at h
      exact ⟨r, rest, rfl, h.1⟩

namespace Expr

variable {level : Level} {source : Text}

/-- A text that starts with a parenthesis, up to blanks. -/
def Grouped (source : Text) : Prop :=
  ∃ before rest, Blank before ∧ source = before ++ .char '(' :: rest

theorem not_grouped {r : Rune} {rest : Text} (hr : r.isUpper = true) : ¬ Grouped (r :: rest) := by
  rintro ⟨before, more, hbefore, heq⟩
  cases before with
  | nil =>
      obtain ⟨rfl, -⟩ := List.cons.inj heq
      exact absurd hr (by decide)
  | cons s before =>
      obtain ⟨rfl, -⟩ := List.cons.inj heq
      have hblank := (Text.blank_cons.1 hbefore).1
      rw [Rune.isBlank_eq_false_of_isWord (Rune.isWord_of_isUpper hr)] at hblank
      cases hblank

theorem Derives.var_cases {name : Text} (h : Derives level source (.var name)) :
    Grouped source ∨ name.isIdentifier = true ∧
      ∃ before after, Blank before ∧ Blank after ∧ source = before ++ name ++ after := by
  generalize hvar : Expr.var name = e at h
  induction h with
  | operand _ ih => exact ih hvar
  | chain | sign | number => cases hvar
  | identifier hb ha hname =>
      cases hvar
      exact .inr ⟨hname, _, _, hb, ha, rfl⟩
  | group hb => exact .inl ⟨_, _, hb, List.append_assoc _ _ _⟩

theorem Derives.equation_cases {a b : Expr} (h : Derives level source (.binary .equal a b)) :
    Grouped source ∨ ∃ left right, source = left ++ .char '=' :: right ∧
      Derives .sum left a ∧ Derives .comparison right b := by
  generalize hequation : Expr.binary .equal a b = e at h
  induction h with
  | operand _ ih => exact ih hequation
  | sign | number | identifier => cases hequation
  | @chain level op left right _ _ hop _ hl hr =>
      cases hequation
      cases level with
      | comparison => exact .inr ⟨left, right, by simp [Infix.spelling, Text.ofString], hl, hr⟩
      | _ => simp [Level.operators] at hop
  | group hb => exact .inl ⟨_, _, hb, List.append_assoc _ _ _⟩

theorem equal_not_mem {name : Text} (h : name.isIdentifier = true) : .char '=' ∉ name := by
  intro hmem
  exact absurd (isWord_of_mem_identifier h _ hmem) (by decide)

/-- A text is cut at the first occurrence of a rune in one way. -/
theorem eq_of_first {r : Rune} {left right left' right' : Text} (hl : r ∉ left) (hl' : r ∉ left')
    (h : left ++ r :: right = left' ++ r :: right') : left = left' ∧ right = right' := by
  rcases List.append_eq_append_iff.1 h with ⟨more, rfl, hright⟩ | ⟨more, rfl, hright⟩
  · cases more with
    | nil => exact ⟨by simp, (List.cons.inj hright).2⟩
    | cons s more =>
        obtain ⟨rfl, -⟩ := List.cons.inj hright
        simp at hl'
  · cases more with
    | nil => exact ⟨by simp, (List.cons.inj hright).2.symm⟩
    | cons s more =>
        obtain ⟨rfl, -⟩ := List.cons.inj hright
        simp at hl

theorem Grouped.append {rest : Text} (h : Grouped source) : Grouped (source ++ rest) := by
  obtain ⟨before, more, hbefore, rfl⟩ := h
  exact ⟨before, more ++ rest, hbefore, List.append_assoc _ _ _⟩

/-- Blanks around an identifier are not part of one. -/
theorem eq_of_padded_identifier {name other before after : Text} (hname : name.isIdentifier = true)
    (hb : Blank before) (ha : Blank after) (h : name = before ++ other ++ after) :
    other = name := by
  have hsolid {t : Text} (ht : Blank t) (hmem : ∀ r ∈ t, r ∈ name) : t = [] := by
    rw [List.eq_nil_iff_forall_not_mem]
    intro r hr
    have hblank := ht r hr
    rw [Rune.isBlank_eq_false_of_isWord (isWord_of_mem_identifier hname r (hmem r hr))] at hblank
    cases hblank
  have hbefore := hsolid hb fun r hr => by simp [h, hr]
  have hafter := hsolid ha fun r hr => by simp [h, hr]
  rw [h, hbefore, hafter, List.nil_append, List.append_nil]

theorem equal_not_mem_of_padded {other before after : Text} (hother : other.isIdentifier = true)
    (hb : Blank before) (ha : Blank after) : .char '=' ∉ before ++ other ++ after := by
  have hblank {t : Text} (ht : Blank t) : .char '=' ∉ t := fun hmem =>
    absurd (ht _ hmem) (by decide)
  simp only [List.mem_append, not_or]
  exact ⟨⟨hblank hb, equal_not_mem hother⟩, hblank ha⟩

/-- What is derived with a name and a sign of equality in front is the equation of the name and a
comparison. -/
theorem derives_equation_iff {name value other : Text} {tree : Expr}
    (hname : name.isIdentifier = true) :
    Derives .logic (name ++ .char '=' :: value) (.binary .equal (.var other) tree) ↔
      other = name ∧ Derives .comparison value tree := by
  constructor
  · intro h
    have hplain : ¬ Grouped (name ++ .char '=' :: value) := by
      obtain ⟨r, rest, rfl, hr⟩ := Text.exists_upper_of_isIdentifier hname
      exact not_grouped hr
    obtain hgroup | ⟨left, right, hsource, hl, hr⟩ := h.equation_cases
    · exact absurd hgroup hplain
    obtain hgroup | ⟨hother, before, after, hb, ha, hleft⟩ := hl.var_cases
    · rw [hsource] at hplain
      exact absurd hgroup.append hplain
    -- Neither name has an equality sign, so both texts are cut at their first one.
    have hfree : .char '=' ∉ left := by
      rw [hleft]
      exact equal_not_mem_of_padded hother hb ha
    obtain ⟨rfl, rfl⟩ := eq_of_first (equal_not_mem hname) hfree hsource
    exact ⟨eq_of_padded_identifier hname hb ha hleft, hr⟩
  · rintro ⟨rfl, h⟩
    have hatom := Derives.identifier Text.blank_nil Text.blank_nil hname
    rw [List.nil_append, List.append_nil] at hatom
    have hsum : Derives .sum other (.var other) := hatom.loosen (by decide)
    have hchain : Derives .comparison (other ++ Infix.equal.spelling ++ value) _ :=
      .chain (by simp [Level.operators]) (by simp) hsum h
    rw [List.append_assoc] at hchain
    exact .operand hchain

/-- The character that stands for a stray byte occurs in no expression. -/
theorem Derives.replacement_not_mem {e : Expr} (h : Derives level source e) :
    .char '\uFFFD' ∉ source := by
  have hblank {t : Text} (ht : Blank t) : .char '\uFFFD' ∉ t := fun hmem =>
    absurd (ht _ hmem) (by decide)
  induction h with
  | operand _ ih => exact ih
  | @chain level op left right _ _ hop _ _ _ ihl ihr =>
      have hspelling : .char '\uFFFD' ∉ op.spelling := by
        cases op with
        | unknown => exact absurd (isKnown_of_mem_operators hop) (by simp [Infix.isKnown])
        | _ => decide
      simp only [List.mem_append, not_or]
      exact ⟨⟨ihl, hspelling⟩, ihr⟩
  | @sign op _ _ _ hop hb _ ih =>
      have hspelling : .char '\uFFFD' ∉ op.spelling := by
        cases op with
        | unknown => cases hop
        | _ => decide
      simp only [List.mem_append, not_or]
      exact ⟨⟨hblank hb, hspelling⟩, ih⟩
  | @number _ digits _ hb ha hdigits _ =>
      have hnumeral : .char '\uFFFD' ∉ digits := by
        simp only [Text.isNumeral, Bool.and_eq_true, List.all_eq_true] at hdigits
        exact fun hmem => absurd (hdigits.2 _ hmem) (by decide)
      simp only [List.mem_append, not_or]
      exact ⟨⟨hblank hb, hnumeral⟩, hblank ha⟩
  | @identifier _ name _ hb ha hname =>
      have hword : .char '\uFFFD' ∉ name := fun hmem =>
        absurd (isWord_of_mem_identifier hname _ hmem) (by decide +kernel)
      simp only [List.mem_append, not_or]
      exact ⟨⟨hblank hb, hword⟩, hblank ha⟩
  | group hb ha _ ih =>
      simp only [List.mem_append, List.mem_cons, List.not_mem_nil, not_or]
      exact ⟨⟨hblank hb, ⟨by decide, ih⟩, by decide⟩, hblank ha⟩

end Expr

def Text.shown (t : Text) : Text := t.map fun r => .char r.shown

theorem Text.shown_eq_self {t : Text} (h : .char '\uFFFD' ∉ t.shown) : t.shown = t := by
  induction t with
  | nil => rfl
  | cons r t ih =>
      obtain ⟨hr, ht⟩ := not_or.1 (List.mem_cons.not.1 h)
      have htail : Text.shown (r :: t) = .char r.shown :: t := congrArg (List.cons _) (ih ht)
      cases r with
      | char c => exact htail
      | stray b => exact absurd rfl hr

theorem Text.solid_shown {t : Text} (h : ∀ r ∈ t, r.isBlank = false) :
    ∀ r ∈ t.shown, r.isBlank = false := by
  intro r hr
  obtain ⟨s, hs, rfl⟩ := List.mem_map.1 hr
  cases s with
  | char c => exact h _ hs
  | stray b => exact (by decide : (Rune.char '\uFFFD').isBlank = false)

theorem Uncommented.of_unquoted {t : Text} (h : ∀ r ∈ t, r ≠ .quote) : Uncommented t t.shown := by
  induction t with
  | nil => exact .nil
  | cons r t ih =>
      obtain ⟨hr, ht⟩ := List.forall_mem_cons.1 h
      exact .rune hr (ih ht)

theorem Uncommented.of_isIdentifier {name : Text} (h : name.isIdentifier = true) :
    Uncommented name name := by
  have hchars := List.all_eq_true.1 (Text.isWellFormed_of_isIdentifier h)
  refine .of_forall fun r hr => ⟨hchars r hr, ?_⟩
  rintro rfl
  exact absurd (Expr.isWord_of_mem_identifier h _ hr) (by decide)

/-- A text without blanks that is read as one word is that word. -/
theorem Splits.eq_of_solid {text w : Text} (h : Splits text [w] [])
    (hsolid : ∀ r ∈ text, r.isBlank = false) : w = text ∧ Word text [] := by
  cases h with
  | blank hr _ =>
      rw [hsolid _ List.mem_cons_self] at hr
      cases hr
  | word hw h =>
      cases h with
      | here =>
          rw [List.append_nil]
          exact ⟨rfl, hw⟩
      | blank hr _ =>
          rw [hsolid _ (by simp)] at hr
          cases hr

open Session

section Assignment

variable {bound : Nat} {source : Text} {program : Program}

theorem compile_assignment_iff {v eq e eof : Token} {name : Text}
    (htokens : (Feed.ofText source none).tokens = ([v, eq, e], .ok eof))
    (hv : v.Reads bound (.var name)) (heq : eq.is .assign = true) :
    compile bound source = .ok program ↔
      ∃ value, e.Reads bound value ∧ program = #[.assign name value] := by
  constructor
  · intro h
    obtain ⟨tokens, last, s, htokens', hleads, hfinish⟩ := compile_eq_ok_iff.1 h
    rw [htokens] at htokens'
    obtain ⟨rfl, -⟩ := Prod.mk.inj htokens'
    have hidle : handle bound {} v = .ok (Session.goto {} (.assignOperator name)) :=
      (handle_idle_iff rfl).2 (.inl ⟨name, hv, rfl⟩)
    obtain ⟨s₁, hs₁, hleads⟩ := leads_cons_iff.1 hleads
    rw [hidle] at hs₁
    obtain rfl := Except.ok.inj hs₁
    obtain ⟨s₂, hs₂, hleads⟩ := leads_cons_iff.1 hleads
    obtain ⟨-, rfl⟩ := handle_assignOperator_iff.1 hs₂
    obtain ⟨s₃, hs₃, hleads⟩ := leads_cons_iff.1 hleads
    obtain ⟨value, he, rfl⟩ := handle_assignValue_iff.1 hs₃
    obtain rfl := leads_nil_iff.1 hleads
    obtain ⟨-, -, rfl, -⟩ := finish_eq_ok_iff.1 hfinish
    exact ⟨value, he, rfl⟩
  · rintro ⟨value, he, rfl⟩
    have hbody : Body.Derives bound [v, eq, e] (.simple (.assign name value) .done) :=
      .simple (.assign hv heq he) .done
    exact compile_of_derives htokens hbody

theorem compile_equation_iff {t eof : Token}
    (htokens : (Feed.ofText source none).tokens = ([t], .ok eof)) (hkind : t.kind = .expression) :
    compile bound source = .ok program ↔ ∃ name value,
      t.Reads bound (.binary .equal (.var name) value) ∧ program = #[.assign name value] := by
  constructor
  · intro h
    obtain ⟨tokens, last, s, htokens', hleads, hfinish⟩ := compile_eq_ok_iff.1 h
    rw [htokens] at htokens'
    obtain ⟨rfl, -⟩ := Prod.mk.inj htokens'
    obtain ⟨s₁, hs₁, hleads⟩ := leads_cons_iff.1 hleads
    obtain rfl := leads_nil_iff.1 hleads
    obtain ⟨hstate, -, rfl, -⟩ := finish_eq_ok_iff.1 hfinish
    have hnot (k : Keyword) : t.is k = false :=
      Token.is_eq_false_of_kind (by rw [hkind]; decide) k
    rcases (handle_idle_iff rfl).1 hs₁ with ⟨name, -, rfl⟩ | ⟨name, value, ht, rfl⟩ | hkeyword
    · -- A name alone leaves its assignment unfinished.
      cases hstate
    · exact ⟨name, value, ht, rfl⟩
    · simp [hnot] at hkeyword
  · rintro ⟨name, value, ht, rfl⟩
    have hbody : Body.Derives bound [t] (.simple (.assign name value) .done) :=
      .simple (.equation ht) .done
    exact compile_of_derives htokens hbody

end Assignment

section Spellings

variable {bound : Nat} {name value : Text}

theorem ofWord_of_isIdentifier (hname : name.isIdentifier = true) (rest : Text) :
    TokenKind.ofWord (name ++ rest) = .expression := by
  obtain ⟨r, more, rfl, hr⟩ := Text.exists_upper_of_isIdentifier hname
  simp [TokenKind.ofWord, hr]

theorem run_of_isIdentifier (hname : name.isIdentifier = true) {rest : Text}
    (hrest : ∀ r ∈ rest, r.isBlank = false) : Text.Run (name ++ rest) := by
  have hsolid : ∀ r ∈ name, r.isBlank = false := fun r hr =>
    Rune.isBlank_eq_false_of_isWord (Expr.isWord_of_mem_identifier hname r hr)
  obtain ⟨r, more, rfl, hr⟩ := Text.exists_upper_of_isIdentifier hname
  refine ⟨by simp, List.forall_mem_append.2 ⟨hsolid, hrest⟩, fun hopen => ?_⟩
  obtain rfl := Option.some.inj hopen
  exact absurd hr (by decide)

theorem atBlank_space (rest : Text) : AtBlank (.char ' ' :: rest) := by
  intro r hr
  obtain rfl := Option.some.inj hr
  decide

/-- The tokens of an assignment in three words. -/
theorem tokens_spaced (hname : name.isIdentifier = true) (hquote : ∀ r ∈ value, r ≠ .quote)
    (hword : Word value.shown []) (hkind : TokenKind.ofWord value.shown = .expression) :
    ∃ v eq e eof, (Feed.ofText (name ++ Text.ofString " = " ++ value) none).tokens =
        ([v, eq, e], .ok eof) ∧ v.kind = .expression ∧ v.literal = name ∧ eq.is .assign = true ∧
      e.kind = .expression ∧ e.literal = value.shown := by
  have hread : Uncommented (name ++ Text.ofString " = " ++ value)
      (name ++ .char ' ' :: ([.char '='] ++ .char ' ' :: value.shown)) := by
    rw [List.append_assoc]
    exact (Uncommented.of_isIdentifier hname).append
      ((Uncommented.of_forall (by decide)).append (.of_unquoted hquote))
  have hfirst : Word name (.char ' ' :: ([.char '='] ++ .char ' ' :: value.shown)) := by
    have hrun : Text.Run (name ++ []) := run_of_isIdentifier hname (by simp)
    rw [List.append_nil] at hrun
    exact .inr ⟨hrun, atBlank_space _⟩
  have hsign : Word [.char '='] (.char ' ' :: value.shown) :=
    .inr ⟨⟨by decide, by decide, by decide⟩, atBlank_space _⟩
  have hlast : Splits value.shown [value.shown] [] := by
    have hsplits := Splits.word hword (.here [])
    rwa [List.append_nil] at hsplits
  have hwords := Splits.word hfirst (.blank (by decide) (.word hsign (.blank (by decide) hlast)))
  obtain ⟨ts, p, htokens, hliterals⟩ := tokens_of_splits hread hwords
  obtain ⟨v, ts, rfl, hv, hliterals⟩ := List.map_eq_cons_iff.1 hliterals
  obtain ⟨eq, ts, rfl, heq, hliterals⟩ := List.map_eq_cons_iff.1 hliterals
  obtain ⟨e, ts, rfl, he, hliterals⟩ := List.map_eq_cons_iff.1 hliterals
  obtain rfl := List.map_eq_nil_iff.1 hliterals
  have hkinds := kind_of_tokens htokens
  simp only [List.forall_mem_cons, hv, heq, he, hkind] at hkinds
  refine ⟨v, eq, e, _, htokens, ?_, hv, ?_, hkinds.2.2.1, he⟩
  · have hname' := ofWord_of_isIdentifier hname []
    rw [List.append_nil] at hname'
    rw [hkinds.1, hname']
  · rw [Token.is, heq, hkinds.2.1]
    decide

/-- The token of an assignment in one word. -/
theorem tokens_fused (hname : name.isIdentifier = true)
    (hvalue : ∀ r ∈ value, r.isBlank = false ∧ r ≠ .quote) :
    ∃ t eof, (Feed.ofText (name ++ Text.ofString "=" ++ value) none).tokens = ([t], .ok eof) ∧
      t.kind = .expression ∧ t.literal = name ++ .char '=' :: value.shown := by
  have hread : Uncommented (name ++ Text.ofString "=" ++ value)
      (name ++ .char '=' :: value.shown) := by
    rw [List.append_assoc]
    exact (Uncommented.of_isIdentifier hname).append
      ((Uncommented.of_forall (by decide)).append (.of_unquoted fun r hr => (hvalue r hr).2))
  have hsolid : ∀ r ∈ Rune.char '=' :: value.shown, r.isBlank = false :=
    List.forall_mem_cons.2 ⟨by decide, Text.solid_shown fun r hr => (hvalue r hr).1⟩
  have hword : Word (name ++ .char '=' :: value.shown) [] :=
    .inr ⟨run_of_isIdentifier hname hsolid, by simp [AtBlank]⟩
  have hwords := Splits.word hword (.here [])
  rw [List.append_nil] at hwords
  obtain ⟨ts, p, htokens, hliterals⟩ := tokens_of_splits hread hwords
  obtain ⟨t, ts, rfl, ht, hliterals⟩ := List.map_eq_cons_iff.1 hliterals
  obtain rfl := List.map_eq_nil_iff.1 hliterals
  refine ⟨t, _, htokens, ?_, ht⟩
  rw [kind_of_tokens htokens t List.mem_cons_self, ht, ofWord_of_isIdentifier hname]

theorem compile_spaced_iff {program : Program} (hname : name.isIdentifier = true)
    (hquote : ∀ r ∈ value, r ≠ .quote) (hword : Word value.shown [])
    (hkind : TokenKind.ofWord value.shown = .expression) (hsize : name.size ≤ bound) :
    compile bound (name ++ Text.ofString " = " ++ value) = .ok program ↔
      ∃ tree, Expr.parse bound value.shown = .ok tree ∧ program = #[.assign name tree] := by
  obtain ⟨v, eq, e, eof, htokens, hvkind, hv, heq, hekind, he⟩ :=
    tokens_spaced hname hquote hword hkind
  have hreads : v.Reads bound (.var name) := by
    refine ⟨hvkind, ?_⟩
    rw [hv]
    exact Expr.parse_identifier hsize hname
  rw [compile_assignment_iff htokens hreads heq]
  simp only [Token.Reads, hekind, he, true_and]

theorem compile_fused_iff {program : Program} (hname : name.isIdentifier = true)
    (hvalue : ∀ r ∈ value, r.isBlank = false ∧ r ≠ .quote) :
    compile bound (name ++ Text.ofString "=" ++ value) = .ok program ↔
      ∃ tree, name.size + 1 + value.shown.size ≤ bound ∧
        Expr.Derives .comparison value.shown tree ∧ program = #[.assign name tree] := by
  have hsize : Text.size (name ++ .char '=' :: value.shown) =
      name.size + 1 + value.shown.size := by
    rw [Text.size_append, Text.size_cons, Nat.add_assoc]
    rfl
  obtain ⟨t, eof, htokens, hkind, ht⟩ := tokens_fused hname hvalue
  rw [compile_equation_iff htokens hkind]
  simp only [Token.Reads, hkind, ht, true_and, Expr.parse_eq_ok_iff, hsize,
    Expr.derives_equation_iff hname]
  constructor
  · rintro ⟨other, tree, ⟨hle, rfl, htree⟩, rfl⟩
    exact ⟨tree, hle, htree, rfl⟩
  · rintro ⟨tree, hle, htree, rfl⟩
    exact ⟨name, tree, ⟨hle, rfl, htree⟩, rfl⟩

end Spellings

/-- Both spellings of an assignment are the same program, which assigns the value that is written,
unless the value has an `and` or `or` outside of parentheses: then the spelling in one word is
refused. What is refused in three words is refused in one. -/
theorem fused_assignment_agrees {bound : Nat} {name value : Text}
    (hname : name.isIdentifier = true) (hvalue : ∀ r ∈ value, r.isBlank = false ∧ r ≠ .quote)
    (htoken : ∃ t eof, (Feed.ofText value none).tokens = ([t], .ok eof) ∧ t.kind = .expression)
    (hsize : name.size + 1 + value.size ≤ bound) (program : Program) :
    (compile bound (name ++ Text.ofString "=" ++ value) = .ok program ↔
      compile bound (name ++ Text.ofString " = " ++ value) = .ok program ∧
        ¬ Expr.HasOuterLogic value) ∧
    (compile bound (name ++ Text.ofString " = " ++ value) = .ok program →
      ∃ tree, Expr.parse bound value = .ok tree ∧ program = #[.assign name tree]) := by
  obtain ⟨t, eof, htokens, hkind⟩ := htoken
  have hquote : ∀ r ∈ value, r ≠ .quote := fun r hr => (hvalue r hr).2
  have hsolid : ∀ r ∈ value, r.isBlank = false := fun r hr => (hvalue r hr).1
  obtain ⟨f, hf, hsplits⟩ := splits_of_tokens htokens
  obtain rfl := hf.unique (.of_unquoted hquote)
  obtain ⟨hliteral, hword⟩ := hsplits.eq_of_solid (Text.solid_shown hsolid)
  rw [kind_of_tokens htokens t List.mem_cons_self, hliteral] at hkind
  rw [compile_spaced_iff hname hquote hword hkind (by omega), compile_fused_iff hname hvalue]
  by_cases hshown : value.shown = value
  · rw [hshown]
    refine ⟨?_, id⟩
    simp only [Expr.parse_eq_ok_iff, Expr.derives_comparison_iff]
    constructor
    · rintro ⟨tree, hle, ⟨htree, hlogic⟩, rfl⟩
      exact ⟨⟨tree, ⟨by omega, htree⟩, rfl⟩, hlogic⟩
    · rintro ⟨⟨tree, ⟨-, htree⟩, rfl⟩, hlogic⟩
      exact ⟨tree, hsize, ⟨htree, hlogic⟩, rfl⟩
  · -- A stray byte is read as a character that no expression has.
    have hnone {level : Expr.Level} {tree : Expr} : ¬ Expr.Derives level value.shown tree :=
      fun htree => hshown (Text.shown_eq_self htree.replacement_not_mem)
    simp [Expr.parse_eq_ok_iff, hnone]

/-- An `and` that touches parentheses only is an operator all the same: the spelling in three words
is an assignment, the one in one word is refused. Without it both assign. -/
theorem glued_and_refused_in_one_word :
    let compiled (sign value : String) (program : Program) : Prop :=
      compile 256 (Text.ofString "V" ++ Text.ofString sign ++ Text.ofString value) = .ok program
    (∃ program, compiled " = " "X*(1)" program ∧ compiled "=" "X*(1)" program) ∧
      (∃ program, compiled " = " "X*(1)and(2)" program) ∧
      ∀ program, ¬ compiled "=" "X*(1)and(2)" program := by
  intro compiled
  have hgroup (digits : Text) (h : digits.isNumeral = true) (hsmall : digits.numeralValue ≤ 9) :
      Expr.Derives .atom (.char '(' :: digits ++ [.char ')'])
        (.literal (Int64.ofNat digits.numeralValue)) := by
    have hnumber := Expr.Derives.number Text.blank_nil Text.blank_nil h (by omega)
    have hgroup := Expr.Derives.group Text.blank_nil Text.blank_nil (hnumber.loosen (by decide))
    simpa using hgroup
  have hX : Expr.Derives .atom (Text.ofString "X") (.var (Text.ofString "X")) :=
    @Expr.Derives.identifier [] (Text.ofString "X") [] Text.blank_nil Text.blank_nil (by decide)
  have hproduct : Expr.Derives .product (Text.ofString "X*(1)") _ :=
    @Expr.Derives.chain .product .mul (Text.ofString "X") (Text.ofString "(1)") _ _ (by decide)
      (by simp) (hX.loosen (by decide))
      ((hgroup (Text.ofString "1") (by decide) (by decide)).loosen (by decide))
  have hbreak : Expr.WordBreak (Text.ofString "X*(1)") (Text.ofString "(2)") := by
    constructor
    · intro r hr
      obtain rfl : .char ')' = r := Option.some.inj hr
      decide
    · intro r hr
      obtain rfl : .char '(' = r := Option.some.inj hr
      decide
  have hlogic : Expr.Derives .logic (Text.ofString "X*(1)and(2)") _ :=
    @Expr.Derives.chain .logic .and (Text.ofString "X*(1)") (Text.ofString "(2)") _ _ (by decide)
      (fun _ => hbreak) (hproduct.loosen (by decide))
      ((hgroup (Text.ofString "2") (by decide) (by decide)).loosen (by decide))
  have hplain : compiled " = " "X*(1)" _ :=
    (compile_spaced_iff (by decide) (by decide)
      (.inr ⟨⟨by decide, by decide, by decide⟩, nofun⟩) (by decide) (by decide)).2
      ⟨_, Expr.parse_eq_ok_iff.2 ⟨by decide, hproduct.loosen (by decide)⟩, rfl⟩
  have hglued : compiled " = " "X*(1)and(2)" _ :=
    (compile_spaced_iff (by decide) (by decide)
      (.inr ⟨⟨by decide, by decide, by decide⟩, nofun⟩) (by decide) (by decide)).2
      ⟨_, Expr.parse_eq_ok_iff.2 ⟨by decide, hlogic⟩, rfl⟩
  refine ⟨⟨_, hplain, ?_⟩, ⟨_, hglued⟩, fun program hfused => ?_⟩
  · apply (@fused_assignment_agrees 256 (Text.ofString "V") (Text.ofString "X*(1)") (by decide)
      (by decide) ⟨_, _, rfl, rfl⟩ (by decide) _).1.2
    exact ⟨hplain, (Expr.derives_comparison_iff.1 (hproduct.loosen (by decide))).2⟩
  · apply ((@fused_assignment_agrees 256 (Text.ofString "V") (Text.ofString "X*(1)and(2)")
      (by decide) (by decide) ⟨_, _, rfl, rfl⟩ (by decide) program).1.1 hfused).2
    exact ⟨.and, by decide, Text.ofString "X*(1)", Text.ofString "(2)", rfl, rfl, hbreak⟩

end Tortoise
