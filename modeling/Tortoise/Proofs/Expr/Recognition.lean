import Tortoise.Proofs.Expr.Pieces
import Tortoise.Proofs.Expr.Span

/-!
# The parser and the grammar

A text that derives a tree cuts into lexemes that the levels of the grammar read to the same tree,
and back. Groups are strictly shorter than the text around them, so the two meet by induction on
the nesting: an expression is read if and only if the grammar derives it.
-/

namespace Tortoise.Expr

open Text (Blank Tight)

theorem spelling_of_asInfix? {mark : Mark} {op : Infix} (h : mark.asInfix? = some op) :
    mark.spelling = op.spelling ∧ op.isKnown = true ∧
      (mark = .and ∨ mark = .or ↔ op = .and ∨ op = .or) := by
  cases mark <;> simp only [Mark.asInfix?, Option.some.injEq, reduceCtorEq] at h <;> subst h <;>
    exact ⟨rfl, rfl, by decide⟩

theorem spelling_of_asPrefix? {mark : Mark} {op : Prefix} (h : mark.asPrefix? = some op) :
    mark.spelling = op.spelling ∧ op.isKnown = true ∧ mark ≠ .and ∧ mark ≠ .or := by
  cases mark <;> simp only [Mark.asPrefix?, Option.some.injEq, reduceCtorEq] at h <;> subst h <;>
    exact ⟨rfl, rfl, by decide⟩

theorem exists_asInfix? {op : Infix} (h : op.isKnown = true) :
    ∃ mark : Mark, mark.asInfix? = some op := by
  cases op with
  | add => exact ⟨.plus, rfl⟩
  | sub => exact ⟨.minus, rfl⟩
  | mul => exact ⟨.times, rfl⟩
  | div => exact ⟨.slash, rfl⟩
  | equal => exact ⟨.equal, rfl⟩
  | greater => exact ⟨.greater, rfl⟩
  | less => exact ⟨.less, rfl⟩
  | and => exact ⟨.and, rfl⟩
  | or => exact ⟨.or, rfl⟩
  | unknown s foreign => simp [Infix.isKnown] at h

theorem exists_asPrefix? {op : Prefix} (h : op.isKnown = true) :
    ∃ mark : Mark, mark.asPrefix? = some op := by
  cases op with
  | negate => exact ⟨.minus, rfl⟩
  | complement => exact ⟨.bang, rfl⟩
  | unknown s foreign => simp [Prefix.isKnown] at h

theorem isKnown_of_mem_operators {level : Level} {op : Infix} (h : op ∈ level.operators) :
    op.isKnown = true := by
  cases level <;> simp [Level.operators] at h <;> rcases h with rfl | rfl | rfl <;> rfl

def operandAfter : Bool → List Piece → Bool
  | operand, [] => operand
  | _, .mark _ :: rest => operandAfter false rest
  | _, .element _ :: rest => operandAfter true rest
  | _, .group _ :: rest => operandAfter true rest

theorem operandAfter_append (operand : Bool) (pl pr : List Piece) :
    operandAfter operand (pl ++ pr) = operandAfter (operandAfter operand pl) pr := by
  induction pl generalizing operand with
  | nil => rfl
  | cons x pl ih => cases x <;> exact ih _

theorem classify_mark {operand : Bool} {mark : Mark} {pieces : List Piece} {span : List Lexeme} :
    classify operand (.mark mark :: pieces) = .ok span ↔
      ∃ x rest, span = x :: rest ∧ classify false pieces = .ok rest ∧
        (operand = true ∧ (∃ op, mark.asInfix? = some op ∧ x = .infixOp op) ∨
          operand = false ∧ ∃ op, mark.asPrefix? = some op ∧ x = .prefixOp op) := by
  cases operand with
  | true =>
      rw [classify]
      cases mark.asInfix? with
      | none => simp
      | some op =>
          rw [map_eq_ok]
          constructor
          · rintro ⟨rest, hrest, rfl⟩
            exact ⟨_, rest, rfl, hrest, .inl ⟨rfl, op, rfl, rfl⟩⟩
          · rintro ⟨x, rest, rfl, hrest, ⟨_, _, hop, rfl⟩ | ⟨h, _⟩⟩
            · obtain rfl := Option.some.inj hop
              exact ⟨rest, hrest, rfl⟩
            · simp at h
  | false =>
      rw [classify]
      cases mark.asPrefix? with
      | none => simp
      | some op =>
          rw [map_eq_ok]
          constructor
          · rintro ⟨rest, hrest, rfl⟩
            exact ⟨_, rest, rfl, hrest, .inr ⟨rfl, op, rfl, rfl⟩⟩
          · rintro ⟨x, rest, rfl, hrest, ⟨h, _⟩ | ⟨_, _, hop, rfl⟩⟩
            · simp at h
            · obtain rfl := Option.some.inj hop
              exact ⟨rest, hrest, rfl⟩

theorem classify_append {operand : Bool} {pl pr : List Piece} {left right : List Lexeme}
    (hl : classify operand pl = .ok left)
    (hr : classify (operandAfter operand pl) pr = .ok right) :
    classify operand (pl ++ pr) = .ok (left ++ right) := by
  induction pl generalizing operand left with
  | nil =>
      obtain rfl : [] = left := Except.ok.inj hl
      exact hr
  | cons x pl ih =>
      cases x with
      | element text =>
          obtain ⟨rest, hrest, rfl⟩ := map_eq_ok.1 hl
          exact map_eq_ok.2 ⟨rest ++ right, ih hrest hr, rfl⟩
      | group inner =>
          obtain ⟨rest, hrest, rfl⟩ := map_eq_ok.1 hl
          exact map_eq_ok.2 ⟨rest ++ right, ih hrest hr, rfl⟩
      | mark mark =>
          obtain ⟨x, rest, rfl, hrest, hx⟩ := classify_mark.1 hl
          exact classify_mark.2 ⟨x, rest ++ right, rfl, ih hrest hr, hx⟩

/-- Each lexeme comes from a piece of its own. -/
theorem exists_of_classify_append {operand : Bool} {pieces : List Piece}
    {left right : List Lexeme} (h : classify operand pieces = .ok (left ++ right)) :
    ∃ pl pr, pieces = pl ++ pr ∧ classify operand pl = .ok left ∧
      classify (operandAfter operand pl) pr = .ok right := by
  induction left generalizing operand pieces with
  | nil => exact ⟨[], pieces, rfl, rfl, h⟩
  | cons y left ih =>
      cases pieces with
      | nil => simp [classify] at h
      | cons x pieces =>
          cases x with
          | element text =>
              obtain ⟨rest, hrest, heq⟩ := map_eq_ok.1 h
              obtain ⟨rfl, rfl⟩ := List.cons.inj heq
              obtain ⟨pl, pr, rfl, hl, hr⟩ := ih hrest
              exact ⟨.element text :: pl, pr, rfl, map_eq_ok.2 ⟨left, hl, rfl⟩, hr⟩
          | group inner =>
              obtain ⟨rest, hrest, heq⟩ := map_eq_ok.1 h
              obtain ⟨rfl, rfl⟩ := List.cons.inj heq
              obtain ⟨pl, pr, rfl, hl, hr⟩ := ih hrest
              exact ⟨.group inner :: pl, pr, rfl, map_eq_ok.2 ⟨left, hl, rfl⟩, hr⟩
          | mark mark =>
              obtain ⟨x, rest, heq, hrest, hx⟩ := classify_mark.1 h
              obtain ⟨rfl, rfl⟩ := List.cons.inj heq
              obtain ⟨pl, pr, rfl, hl, hr⟩ := ih hrest
              exact ⟨.mark mark :: pl, pr, rfl, classify_mark.2 ⟨y, left, rfl, hl, hx⟩, hr⟩

theorem classify_nil_iff {operand : Bool} {pieces : List Piece} :
    classify operand pieces = .ok [] ↔ pieces = [] := by
  cases pieces with
  | nil => simp [classify]
  | cons x pieces =>
      cases x with
      | mark mark => simp [classify_mark]
      | _ => simp [classify, map_eq_ok]

theorem classify_infix {operand : Bool} {pieces : List Piece} {op : Infix} {span : List Lexeme}
    (h : classify operand pieces = .ok (.infixOp op :: span)) :
    ∃ mark rest, pieces = .mark mark :: rest ∧ mark.asInfix? = some op ∧
      classify false rest = .ok span := by
  cases pieces with
  | nil => simp [classify] at h
  | cons x pieces =>
      cases x with
      | mark mark =>
          obtain ⟨x, rest, heq, hrest, hx⟩ := classify_mark.1 h
          obtain ⟨rfl, rfl⟩ := List.cons.inj heq
          rcases hx with ⟨_, op', hop, heq⟩ | ⟨_, op', _, heq⟩
          · obtain rfl := Lexeme.infixOp.inj heq
            exact ⟨mark, pieces, rfl, hop, hrest⟩
          · simp at heq
      | _ => simp [classify, map_eq_ok] at h

theorem classify_prefix {operand : Bool} {pieces : List Piece} {op : Prefix} {span : List Lexeme}
    (h : classify operand pieces = .ok (.prefixOp op :: span)) :
    ∃ mark rest, pieces = .mark mark :: rest ∧ mark.asPrefix? = some op ∧
      classify false rest = .ok span := by
  cases pieces with
  | nil => simp [classify] at h
  | cons x pieces =>
      cases x with
      | mark mark =>
          obtain ⟨x, rest, heq, hrest, hx⟩ := classify_mark.1 h
          obtain ⟨rfl, rfl⟩ := List.cons.inj heq
          rcases hx with ⟨_, op', _, heq⟩ | ⟨_, op', hop, heq⟩
          · simp at heq
          · obtain rfl := Lexeme.prefixOp.inj heq
            exact ⟨mark, pieces, rfl, hop, hrest⟩
      | _ => simp [classify, map_eq_ok] at h

theorem classify_operand {operand : Bool} {pieces : List Piece} {x : Lexeme}
    (h : classify operand pieces = .ok [x]) :
    (∀ text, x = .element text → pieces = [.element text]) ∧
      ∀ inner, x = .group inner → pieces = [.group inner] := by
  cases pieces with
  | nil => simp [classify] at h
  | cons y pieces =>
      cases y with
      | mark mark =>
          obtain ⟨x, rest, heq, _, hx⟩ := classify_mark.1 h
          obtain ⟨rfl, _⟩ := List.cons.inj heq
          rcases hx with ⟨_, op, _, rfl⟩ | ⟨_, op, _, rfl⟩ <;> simp
      | element text =>
          obtain ⟨rest, hrest, heq⟩ := map_eq_ok.1 h
          obtain ⟨rfl, rfl⟩ := List.cons.inj heq
          rw [classify_nil_iff.1 hrest]
          simp
      | group inner =>
          obtain ⟨rest, hrest, heq⟩ := map_eq_ok.1 h
          obtain ⟨rfl, rfl⟩ := List.cons.inj heq
          rw [classify_nil_iff.1 hrest]
          simp

theorem isKnown_of_classify {operand : Bool} {pieces : List Piece} {span : List Lexeme}
    (h : classify operand pieces = .ok span) : ∀ x ∈ span, x.isKnown = true := by
  induction pieces generalizing operand span with
  | nil =>
      obtain rfl : [] = span := Except.ok.inj h
      simp
  | cons y pieces ih =>
      suffices hcons : ∃ x rest, span = x :: rest ∧ x.isKnown = true ∧
          ∃ operand, classify operand pieces = .ok rest by
        obtain ⟨x, rest, rfl, hx, _, hrest⟩ := hcons
        intro z hz
        rcases List.mem_cons.1 hz with rfl | hz
        · exact hx
        · exact ih hrest z hz
      cases y with
      | element text =>
          obtain ⟨rest, hrest, rfl⟩ := map_eq_ok.1 h
          exact ⟨_, rest, rfl, rfl, true, hrest⟩
      | group inner =>
          obtain ⟨rest, hrest, rfl⟩ := map_eq_ok.1 h
          exact ⟨_, rest, rfl, rfl, true, hrest⟩
      | mark mark =>
          obtain ⟨x, rest, rfl, hrest, hx⟩ := classify_mark.1 h
          refine ⟨x, rest, rfl, ?_, false, hrest⟩
          rcases hx with ⟨_, op, hop, rfl⟩ | ⟨_, op, hop, rfl⟩
          · exact (spelling_of_asInfix? hop).2.1
          · exact (spelling_of_asPrefix? hop).2.1

theorem balanced_spelling_of_mem {level : Level} {op : Infix} (h : op ∈ level.operators) :
    Balanced op.spelling := by
  apply balanced_of_forall
  cases op with
  | unknown s foreign => exact absurd (isKnown_of_mem_operators h) (by simp [Infix.isKnown])
  | _ => decide

theorem Derives.balanced {level : Level} {source : Text} {e : Expr}
    (h : Derives level source e) : Balanced source := by
  have hbare {t : Text} (ht : Bare none t) : Balanced t := by
    apply balanced_of_forall
    generalize none = before at ht
    induction t generalizing before with
    | nil => simp
    | cons r t ih =>
        intro s hs
        rcases List.mem_cons.1 hs with rfl | hs
        · exact ⟨ht.1.not_open, ht.1.not_close⟩
        · exact ih (some r) ht.2 s hs
  have hblank {t : Text} (ht : Blank t) : Balanced t := hbare (Blank.bare ht none)
  induction h with
  | operand _ ih => exact ih
  | chain hop _ _ _ ihl ihr => exact (ihl.append (balanced_spelling_of_mem hop)).append ihr
  | @sign op _ _ _ hop hb _ ih =>
      refine ((hblank hb).append ?_).append ih
      apply balanced_of_forall
      cases op with
      | unknown s foreign => simp [Prefix.isKnown] at hop
      | _ => decide
  | number hb ha hdigits _ =>
      exact ((hblank hb).append (hbare (bare_of_isNumeral hdigits none))).append (hblank ha)
  | identifier hb ha hname =>
      exact ((hblank hb).append (hbare (bare_of_isIdentifier hname none))).append (hblank ha)
  | group hb ha _ ih => exact ((hblank hb).append ih.paren).append (hblank ha)

theorem parseElement_number {digits : Text} (hdigits : digits.isNumeral = true)
    (hvalue : digits.numeralValue ≤ 0x7fffffffffffffff) :
    parseElement digits = .ok (.literal (Int64.ofNat digits.numeralValue)) := by
  have htight := tight_numeral hdigits
  have htrim : digits.trim = digits := by
    simpa using Text.trim_pad Text.blank_nil Text.blank_nil htight
  have hlt : digits.numeralValue < 0x8000000000000000 := by omega
  simp [parseElement, htrim, htight.ne_nil, hdigits, hlt]

theorem not_isNumeral_of_isIdentifier {name : Text} (h : name.isIdentifier = true) :
    name.isNumeral = false := by
  cases name with
  | nil => rfl
  | cons r rest =>
      simp only [Text.isIdentifier, Bool.and_eq_true] at h
      cases hdigit : r.isAsciiDigit with
      | false => simp [Text.isNumeral, hdigit]
      | true => exact absurd h.1 (by simp [Rune.isUpper_eq_false_of_isAsciiDigit hdigit])

theorem parseElement_identifier {name : Text} (h : name.isIdentifier = true) :
    parseElement name = .ok (.var name) := by
  have htight := tight_identifier h
  have htrim : name.trim = name := by
    simpa using Text.trim_pad Text.blank_nil Text.blank_nil htight
  simp [parseElement, htrim, htight.ne_nil, not_isNumeral_of_isIdentifier h, h]

theorem atBoundary_of_wordBreak {left right : Text} (h : WordBreak left right) :
    atBoundary left.getLast? right = true := by
  have hl : left.getLast?.any Rune.isWord = false := by
    cases hlast : left.getLast? with
    | none => rfl
    | some r => exact h.1 r hlast
  have hr : right.head?.any Rune.isWord = false := by
    cases hhead : right.head? with
    | none => rfl
    | some r => exact h.2 r hhead
  simp [atBoundary, hl, hr]

theorem Mark.Fits.of_wordBreak {mark : Mark} {op : Infix} {left right : Text}
    (hmark : mark.asInfix? = some op) (hne : left ≠ [])
    (hbreak : op = .and ∨ op = .or → WordBreak left right) (before : Option Rune) :
    mark.Fits (behind before left) right := by
  intro hword
  rw [behind_of_ne_nil hne]
  exact atBoundary_of_wordBreak (hbreak ((spelling_of_asInfix? hmark).2.2.1 hword))

/-- What the grammar derives cuts into lexemes that its levels read. -/
theorem Derives.exists_reads {level : Level} {source : Text} {e : Expr}
    (h : Derives level source e) {n : Nat} (hn : source.length ≤ n) (before : Option Rune) :
    ∃ pieces span, Cuts [] before source pieces ∧ operandAfter false pieces = true ∧
      classify false pieces = .ok span ∧
      Reads (fun inner e => inner.length < n ∧ Derives .logic inner e) level span e := by
  induction h generalizing before with
  | operand _ ih =>
      obtain ⟨pieces, span, hcuts, hlast, hspan, hreads⟩ := ih hn before
      exact ⟨pieces, span, hcuts, hlast, hspan, .operand hreads⟩
  | @chain level op left right a b hop hbreak hl _ ihl ihr =>
      simp only [List.length_append] at hn
      obtain ⟨mark, hmark⟩ := exists_asInfix? (isKnown_of_mem_operators hop)
      obtain ⟨pl, sl, hcutsl, hlastl, hspanl, hreadsl⟩ := ihl (by omega) before
      obtain ⟨pr, sr, hcutsr, hlastr, hspanr, hreadsr⟩ :=
        ihr (by omega) (behind before (left ++ mark.spelling))
      have hfits := Mark.Fits.of_wordBreak hmark hl.ne_nil hbreak before
      refine ⟨pl ++ .mark mark :: pr, sl ++ .infixOp op :: sr, ?_, ?_, ?_, ?_⟩
      · rw [← (spelling_of_asInfix? hmark).1, List.append_assoc]
        exact hcutsl.append hfits hcutsr
      · rw [operandAfter_append]
        exact hlastr
      · refine classify_append hspanl (classify_mark.2 ⟨_, sr, rfl, hspanr, .inl ?_⟩)
        exact ⟨hlastl, op, hmark, rfl⟩
      · exact .chain hop hreadsl hreadsr
  | @sign op blank source e hop hblank _ ih =>
      simp only [List.length_append] at hn
      obtain ⟨mark, hmark⟩ := exists_asPrefix? hop
      obtain ⟨hspelling, _, hand, hor⟩ := spelling_of_asPrefix? hmark
      obtain ⟨pieces, span, hcuts, hlast, hspan, hreads⟩ :=
        ih (by omega) (behind before (blank ++ mark.spelling))
      have hfits : mark.Fits (behind before blank) source := fun hword => by simp_all
      refine ⟨.mark mark :: pieces, .prefixOp op :: span, ?_, hlast, ?_, .sign hop hreads⟩
      · rw [← hspelling, List.append_assoc]
        exact (cuts_blank hblank before).append hfits hcuts
      · exact classify_mark.2 ⟨_, span, rfl, hspan, .inr ⟨rfl, op, hmark, rfl⟩⟩
  | @number b digits a hb ha hdigits hvalue =>
      exact ⟨[.element digits], [.element digits],
        cuts_element hb ha (tight_numeral hdigits) (bare_of_isNumeral hdigits) before, rfl, rfl,
        .element (parseElement_number hdigits hvalue)⟩
  | @identifier b name a hb ha hname =>
      exact ⟨[.element name], [.element name],
        cuts_element hb ha (tight_identifier hname) (bare_of_isIdentifier hname) before, rfl, rfl,
        .element (parseElement_identifier hname)⟩
  | @group b inner a e hb ha hinner _ =>
      simp only [List.length_append, List.length_cons] at hn
      exact ⟨[.group inner], [.group inner], cuts_group hb ha hinner.balanced before, rfl, rfl,
        .group ⟨by omega, hinner⟩⟩

theorem WordBreak.of_fits {mark : Mark} {before : Option Rune} {left right : Text}
    (hword : mark = .and ∨ mark = .or) (h : mark.Fits (behind before left) right) :
    WordBreak left right := by
  have hb := h hword
  simp only [atBoundary, Bool.and_eq_true, Bool.not_eq_true'] at hb
  refine ⟨?_, ?_⟩
  · intro r hr
    simpa [behind, hr] using hb.1
  · intro r hr
    simpa [hr] using hb.2

theorem derives_of_parseElement {source : Text} {e : Expr}
    (h : parseElement source.trim = .ok e) : Derives .atom source e := by
  obtain ⟨b, a, hb, ha, hsource⟩ := Text.exists_trim_eq source
  simp only [parseElement, Text.trim_trim] at h
  rw [hsource]
  split at h
  next => simp at h
  next =>
    split at h
    next hdigits =>
      split at h
      next hvalue =>
        obtain rfl := Except.ok.inj h
        exact .number hb ha hdigits (by omega)
      next => simp at h
    next =>
      split at h
      next hname =>
        obtain rfl := Except.ok.inj h
        exact .identifier hb ha hname
      next => simp at h

/-- What the levels read from the lexemes of a text, the grammar derives from the text. -/
theorem Reads.derives {level : Level} {span : List Lexeme} {e : Expr}
    (h : Reads (Derives .logic) level span e) {operand : Bool} {before : Option Rune}
    {source : Text} {pieces : List Piece} (hcuts : Cuts [] before source pieces)
    (hspan : classify operand pieces = .ok span) : Derives level source e := by
  induction h generalizing operand before source pieces with
  | operand _ ih => exact .operand (ih hcuts hspan)
  | @chain level op left right a b hop _ _ ihl ihr =>
      obtain ⟨pl, pieces', rfl, hleft, hrest⟩ := exists_of_classify_append hspan
      obtain ⟨mark, pr, rfl, hmark, hright⟩ := classify_infix hrest
      obtain ⟨l, r, rfl, hcutsl, hfits, hcutsr⟩ := hcuts.split
      obtain ⟨hspelling, _, hword⟩ := spelling_of_asInfix? hmark
      rw [hspelling, ← List.append_assoc]
      refine .chain hop (fun h => ?_) (ihl hcutsl hleft) (ihr hcutsr hright)
      exact WordBreak.of_fits (hword.2 h) hfits
  | @sign op span e hop _ ih =>
      obtain ⟨mark, pr, rfl, hmark, hright⟩ := classify_prefix hspan
      rw [← List.nil_append (Piece.mark mark :: pr)] at hcuts
      obtain ⟨blank, r, rfl, hblank, _, hcutsr⟩ := hcuts.split
      rw [(spelling_of_asPrefix? hmark).1, ← List.append_assoc]
      exact .sign hop hblank.blank.2 (ih hcutsr hright)
  | element h =>
      obtain rfl := (classify_operand hspan).1 _ rfl
      rw [hcuts.eq_trim] at h
      exact derives_of_parseElement h
  | group h =>
      obtain rfl := (classify_operand hspan).2 _ rfl
      obtain ⟨_, b, a, hb, ha, rfl⟩ := hcuts.exists_group
      exact .group hb ha h

theorem above_one_of_isKnown {span : List Lexeme} (h : ∀ x ∈ span, x.isKnown = true) :
    Above Level.logic.rank span := by
  intro x hx j hj
  have hknown := h x hx
  cases x with
  | infixOp op =>
      obtain rfl : op.rank = j := Option.some.inj hj
      cases op <;> first | decide | simp [Lexeme.isKnown, Infix.isKnown] at hknown
  | prefixOp op =>
      obtain rfl : Prefix.rank = j := Option.some.inj hj
      decide
  | element text => simp [Lexeme.rank?] at hj
  | group inner => simp [Lexeme.rank?] at hj

theorem derives_of_parseTrimmed {depth : Nat} {source : Text} {e : Expr}
    (h : parseTrimmed depth source = .ok e) : Derives .logic source e := by
  induction depth generalizing source e with
  | zero => cases source <;> simp [parseTrimmed] at h
  | succ depth ih =>
      cases source with
      | nil => simp [parseTrimmed] at h
      | cons r rest =>
          simp only [parseTrimmed] at h
          split at h
          next => simp at h
          next span hspan =>
            obtain ⟨pieces, hcut, hclassify⟩ := bind_eq_ok.1 hspan
            have hreads : Reads (Derives .logic) .logic span e := by
              refine reads_of_parseSpan (fun inner e he => ?_) h (isKnown_of_classify hclassify) ?_
              · exact derives_trim_iff.1 (ih he)
              · exact above_one_of_isKnown (isKnown_of_classify hclassify)
            exact hreads.derives (cutFrom_eq_ok_iff.1 hcut) hclassify

theorem parseTrimmed_of_derives {depth : Nat} {source : Text} {e : Expr}
    (hdepth : source.length ≤ depth) (h : Derives .logic source e) :
    parseTrimmed depth source = .ok e := by
  induction depth generalizing source e with
  | zero => exact absurd (List.length_eq_zero_iff.1 (Nat.le_zero.1 hdepth)) h.ne_nil
  | succ depth ih =>
      obtain ⟨r, rest, rfl⟩ := List.exists_cons_of_ne_nil h.ne_nil
      obtain ⟨pieces, span, hcuts, _, hspan, hreads⟩ := h.exists_reads hdepth none
      have hlexemes : lexemes (r :: rest) = .ok span :=
        bind_eq_ok.2 ⟨pieces, cutFrom_eq_ok_iff.2 hcuts, hspan⟩
      simp only [parseTrimmed, hlexemes]
      refine hreads.parseSpan_eq ?_
      rintro inner e ⟨hshort, hinner⟩
      refine ih ?_ (derives_trim_iff.2 hinner)
      have hle := Text.length_trim_le inner
      omega

theorem parse_eq_ok_iff {bound : Nat} {source : Text} {e : Expr} :
    parse bound source = .ok e ↔ source.size ≤ bound ∧ Derives .logic source e := by
  unfold parse
  by_cases hsize : bound < source.size
  · rw [if_pos hsize]
    simp only [reduceCtorEq, false_iff, not_and]
    omega
  · rw [if_neg hsize]
    have hle : source.size ≤ bound := by omega
    cases hbalance : balanceFrom 0 0 source with
    | error reason =>
        simp only [reduceCtorEq, false_iff, not_and]
        intro _ h
        rw [balanceFrom_eq_ok_iff.2 (h.balanced 0)] at hbalance
        simp at hbalance
    | ok u =>
        constructor
        · intro h
          exact ⟨hle, derives_trim_iff.1 (derives_of_parseTrimmed h)⟩
        · rintro ⟨_, h⟩
          exact parseTrimmed_of_derives (Text.length_trim_le source) (derives_trim_iff.2 h)

theorem parse_atom {bound : Nat} {source : Text} {e : Expr} (hsize : source.size ≤ bound)
    (hatom : Derives .atom source e) : parse bound source = .ok e := by
  exact parse_eq_ok_iff.2 ⟨hsize, hatom.loosen (by decide)⟩

theorem parse_numeral {bound : Nat} {digits : Text} (hsize : digits.size ≤ bound)
    (hdigits : digits.isNumeral = true) (hvalue : digits.numeralValue ≤ 0x7fffffffffffffff) :
    parse bound digits = .ok (.literal (Int64.ofNat digits.numeralValue)) := by
  have hatom := Derives.number Text.blank_nil Text.blank_nil hdigits hvalue
  rw [List.nil_append, List.append_nil] at hatom
  exact parse_atom hsize hatom

theorem parse_identifier {bound : Nat} {name : Text} (hsize : name.size ≤ bound)
    (hname : name.isIdentifier = true) : parse bound name = .ok (.var name) := by
  have hatom := Derives.identifier Text.blank_nil Text.blank_nil hname
  rw [List.nil_append, List.append_nil] at hatom
  exact parse_atom hsize hatom

theorem ParseError.exists_message_eq (error : ParseError) :
    ∃ detail : String, error.message = "unparseable expression " ++ detail := by
  refine ⟨Text.quote error.source ++ (": " ++ error.reason.message), ?_⟩
  unfold ParseError.message
  simp only [String.append_assoc]

/-- The parser accepts exactly the grammar and builds exactly its trees. Any other text has no tree
but an error that calls it unparseable. -/
theorem parse_recognizes_grammar (bound : Nat) (source : Text) :
    (∀ e, parse bound source = .ok e ↔ source.size ≤ bound ∧ Derives .logic source e) ∧
      ((¬ ∃ e, source.size ≤ bound ∧ Derives .logic source e) →
        ∃ error : ParseError, parse bound source = .error error ∧
          ∃ detail : String, error.message = "unparseable expression " ++ detail) := by
  refine ⟨fun e => parse_eq_ok_iff, fun hnone => ?_⟩
  cases hparse : parse bound source with
  | ok e => exact absurd ⟨e, parse_eq_ok_iff.1 hparse⟩ hnone
  | error error => exact ⟨error, rfl, error.exists_message_eq⟩

end Tortoise.Expr
