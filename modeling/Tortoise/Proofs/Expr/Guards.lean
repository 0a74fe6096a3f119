import Tortoise.Proofs.Expr.Recognition
import Tortoise.Proofs.Token.Splits

/-!
# Guards that nothing sets off

The parser has branches for what should not happen: a parenthesis without partner behind the check
of the parentheses, a prefix operator in the middle of a span, an infix operator in front of one, an
operator that the language does not know. The watched parser below raises an alarm in each of these
branches and is otherwise the parser; the two agree on every text, so no alarm is ever raised.

Two facts carry this through every split and every group. Parentheses pair up inside of a group as
they do around it, and a span between operators is classified as if it started a text, so that a
prefix operator in it stands first or behind another operator.
-/

namespace Tortoise.Expr

open Text (Blank)

/-- A branch of the parser for what should not happen. -/
inductive Alarm where
  /-- Cutting meets a parenthesis without partner, its only failure. -/
  | parenthesis (reason : Reason)
  /-- Groups nest deeper than the text is long. -/
  | nesting
  /-- The loosest operator of a span is a prefix operator with something before it. -/
  | misplacedPrefix (op : Prefix)
  /-- The loosest operator of a span is an infix operator with nothing before it. -/
  | emptyLeft (op : Infix)
  /-- An operator is looked up that the language does not know. -/
  | unknownOperator (spelling : Text)
deriving DecidableEq

inductive Stop where
  | rejected (e : ParseError)
  | alarm (alarm : Alarm)
deriving DecidableEq

def unalarmed {α : Type} (x : Except ParseError α) : Except Stop α := x.mapError .rejected

def unaryWatched (op : Prefix) (operand : Expr) : Except Stop Expr :=
  let found := Prefix.ofSpelling op.spelling
  if found.isKnown then .ok (.unary found operand)
  else .error (.alarm (.unknownOperator op.spelling))

def binaryWatched (op : Infix) (l r : Expr) : Except Stop Expr :=
  let found := Infix.ofSpelling op.spelling
  if found.isKnown then .ok (.binary found l r)
  else .error (.alarm (.unknownOperator op.spelling))

def parseSingleWatched (group : Text → Except Stop Expr) (source : Text) :
    Lexeme → Except Stop Expr
  | .group inner => group inner
  | .element text => unalarmed (parseElement text)
  | .prefixOp op => .error (.rejected ⟨source, .loneOperator op.spelling⟩)
  | .infixOp op => .error (.rejected ⟨source, .loneOperator op.spelling⟩)

def parseSpanWatched (group : Text → Except Stop Expr) (source : Text) :
    List Lexeme → Except Stop Expr
  | [] => .error (.rejected ⟨source, .missingOperand⟩)
  | [x] => parseSingleWatched group source x
  | x :: y :: rest =>
    match _split : splitLoosest? (x :: y :: rest) with
    | some (left, .prefixOp op, right) =>
      if left.isEmpty then do
        let operand ← parseSpanWatched group source right
        unaryWatched op operand
      else .error (.alarm (.misplacedPrefix op))
    | some (left, .infixOp op, right) =>
      if left.isEmpty then .error (.alarm (.emptyLeft op))
      else do
        let l ← parseSpanWatched group source left
        let r ← parseSpanWatched group source right
        binaryWatched op l r
    | _ => .error (.rejected ⟨source, .missingOperator⟩)
termination_by span => span.length
decreasing_by
  all_goals
    have hlen := congrArg List.length (append_of_splitLoosest? _split)
    simp only [List.length_cons, List.length_append] at hlen ⊢
    omega

def parseTrimmedWatched : (depth : Nat) → Text → Except Stop Expr
  | _, [] => .error (.rejected ⟨[], .empty⟩)
  | 0, _ => .error (.alarm .nesting)
  | depth + 1, source =>
    match cut source with
    | .error reason => .error (.alarm (.parenthesis reason))
    | .ok pieces =>
      match classify false pieces with
      | .error reason => .error (.rejected ⟨source, reason⟩)
      | .ok span =>
        parseSpanWatched (fun inner => parseTrimmedWatched depth inner.trim) source span

def parseWatched (bound : Nat) (source : Text) : Except Stop Expr :=
  if bound < source.size then .error (.rejected ⟨source, .tooLong bound⟩)
  else match balanceFrom 0 0 source with
    | .error reason => .error (.rejected ⟨source, reason⟩)
    | .ok () => parseTrimmedWatched source.length source.trim

theorem balanced_of_blank {t : Text} (h : Blank t) : Balanced t := by
  apply balanced_of_forall
  intro r hr
  have hinert := inert_of_isBlank (h r hr) none
  exact ⟨hinert.not_open, hinert.not_close⟩

theorem Mark.balanced_spelling (mark : Mark) : Balanced mark.spelling := by
  apply balanced_of_forall
  cases mark <;> decide

theorem Balanced.of_append_left {s t : Text} (hs : Balanced s) (h : Balanced (s ++ t)) :
    Balanced t := by
  intro depth
  have hdepth := h depth
  rwa [depthAfter_append, hs depth, Option.bind_some] at hdepth

theorem Balanced.trim {source : Text} (h : Balanced source) : Balanced source.trim := by
  obtain ⟨before, after, hbefore, hafter, hsource⟩ := Text.exists_trim_eq source
  rw [hsource, List.append_assoc] at h
  apply balanced_of_depthAfter
  have hdepth := (balanced_of_blank hbefore).of_append_left h 0
  rw [depthAfter_append, Option.bind_eq_some_iff] at hdepth
  obtain ⟨depth, htrim, hrest⟩ := hdepth
  rw [balanced_of_blank hafter depth] at hrest
  rw [htrim, hrest]

/-- A text whose parentheses pair up falls into pieces. -/
theorem exists_cuts_of_balanced {source : Text} (h : Balanced source) (collected : Text)
    (before : Option Rune) : ∃ pieces, Cuts collected before source pieces := by
  -- A group or a word operator takes several runes at once, so the induction is on the length.
  induction hlen : source.length using Nat.strongRecOn generalizing collected source before with
  | _ n ih =>
    subst hlen
    cases source with
    | nil => exact ⟨_, .done⟩
    | cons r rest =>
        cases hmark : mark? before (r :: rest) with
        | some found =>
            obtain ⟨mark, place⟩ := found
            obtain ⟨after, htext, hfits⟩ := exists_of_mark? hmark
            have hshort : after.length < (r :: rest).length := by
              have hpos := List.length_pos_iff.2 (spelling_ne_nil mark)
              rw [htext, List.length_append]
              omega
            rw [htext] at h ⊢
            have hafter := mark.balanced_spelling.of_append_left h
            obtain ⟨pieces, hpieces⟩ := ih _ hshort hafter [] _ rfl
            exact ⟨_, .mark hfits hpieces⟩
        | none =>
            by_cases hopen : r.is '(' = true
            · obtain rfl := eq_char_of_is hopen
              obtain ⟨inner, after, rfl, hinner⟩ := Text.exists_closing_of_depthAfter (h 0)
              have hinner := balanced_of_depthAfter hinner
              have hsource : .char '(' :: (inner ++ .char ')' :: after) =
                  (.char '(' :: inner ++ [.char ')']) ++ after := by simp
              have hafter : Balanced after := by
                rw [hsource] at h
                exact hinner.paren.of_append_left h
              have hshort : after.length < (.char '(' :: (inner ++ .char ')' :: after)).length := by
                simp only [List.length_append, List.length_cons]
                omega
              obtain ⟨pieces, hpieces⟩ := ih _ hshort hafter [] _ rfl
              exact ⟨_, .group hinner hpieces⟩
            · have hclose : r.is ')' = false := by
                rw [← Bool.not_eq_true]
                intro hclose
                have hdepth := h 0
                rw [depthAfter_cons, if_neg hopen, if_pos hclose] at hdepth
                cases hdepth
              rw [Bool.not_eq_true] at hopen
              have hrest : Balanced rest := by
                intro depth
                have hdepth := h depth
                simpa only [depthAfter_cons, hopen, hclose, Bool.false_eq_true, if_false]
                  using hdepth
              obtain ⟨pieces, hpieces⟩ := ih rest.length (by simp) hrest (r :: collected) _ rfl
              exact ⟨_, .plain hopen hclose hmark hpieces⟩

theorem group_not_mem_flush (collected inner : Text) : Piece.group inner ∉ flush collected := by
  rcases flush_eq collected with ⟨hnil, _⟩ | hone
  · simp [hnil]
  · simp [hone]

/-- Parentheses pair up inside of a group, which is shorter than the text around it. -/
theorem Cuts.balanced_of_mem {collected source inner : Text} {before : Option Rune}
    {pieces : List Piece} (h : Cuts collected before source pieces) (hmem : .group inner ∈ pieces) :
    Balanced inner ∧ inner.length < source.length := by
  induction h with
  | done => exact absurd hmem (group_not_mem_flush _ _)
  | plain _ _ _ _ ih =>
      obtain ⟨hbalanced, hshort⟩ := ih hmem
      exact ⟨hbalanced, Nat.lt_succ_of_lt hshort⟩
  | group hinner _ ih =>
      simp only [List.mem_append, List.mem_cons, group_not_mem_flush, false_or] at hmem
      rcases hmem with heq | hmem
      · obtain rfl := Piece.group.inj heq
        refine ⟨hinner, ?_⟩
        simp only [List.length_append, List.length_cons]
        omega
      · obtain ⟨hbalanced, hshort⟩ := ih hmem
        refine ⟨hbalanced, ?_⟩
        simp only [List.length_append, List.length_cons]
        omega
  | mark _ _ ih =>
      simp only [List.mem_append, List.mem_cons, group_not_mem_flush, false_or, reduceCtorEq]
        at hmem
      obtain ⟨hbalanced, hshort⟩ := ih hmem
      exact ⟨hbalanced, by rw [List.length_append]; omega⟩

theorem group_mem_of_classify {operand : Bool} {pieces : List Piece} {span : List Lexeme}
    {inner : Text} (h : classify operand pieces = .ok span) (hmem : .group inner ∈ span) :
    .group inner ∈ pieces := by
  induction pieces generalizing operand span with
  | nil =>
      obtain rfl : [] = span := Except.ok.inj h
      cases hmem
  | cons x pieces ih =>
      cases x with
      | element text =>
          obtain ⟨rest, hrest, rfl⟩ := map_eq_ok.1 h
          simp only [List.mem_cons, reduceCtorEq, false_or] at hmem ⊢
          exact ih hrest hmem
      | group other =>
          obtain ⟨rest, hrest, rfl⟩ := map_eq_ok.1 h
          simp only [List.mem_cons, Lexeme.group.injEq, Piece.group.injEq] at hmem ⊢
          exact hmem.imp_right (ih hrest)
      | mark mark =>
          obtain ⟨x, rest, rfl, hrest, hx⟩ := classify_mark.1 h
          rcases hx with ⟨_, op, _, rfl⟩ | ⟨_, op, _, rfl⟩
          · simp only [List.mem_cons, reduceCtorEq, false_or] at hmem ⊢
            exact ih hrest hmem
          · simp only [List.mem_cons, reduceCtorEq, false_or] at hmem ⊢
            exact ih hrest hmem

theorem rank_le_of_rank? {x : Lexeme} {k : Nat} (h : x.rank? = some k) : k ≤ Prefix.rank := by
  cases x with
  | infixOp op =>
      obtain rfl : op.rank = k := Option.some.inj h
      cases op with
      | unknown s foreign => exact Nat.zero_le _
      | _ => decide
  | prefixOp op =>
      obtain rfl : Prefix.rank = k := Option.some.inj h
      exact Nat.le_refl _
  | element text => cases h
  | group inner => cases h

/-- An operator is infix behind an operand and prefix elsewhere. -/
theorem operand_of_classify {operand : Bool} {pieces : List Piece} {x : Lexeme}
    {span : List Lexeme} (h : classify operand pieces = .ok (x :: span)) :
    (∀ op, x = .prefixOp op → operand = false) ∧ ∀ op, x = .infixOp op → operand = true := by
  cases pieces with
  | nil => cases h
  | cons y pieces =>
      cases y with
      | mark mark =>
          obtain ⟨x, _, heq, -, hx⟩ := classify_mark.1 h
          obtain ⟨rfl, -⟩ := List.cons.inj heq
          rcases hx with ⟨hoperand, _, _, rfl⟩ | ⟨hoperand, _, _, rfl⟩
          · exact ⟨nofun, fun _ _ => hoperand⟩
          · exact ⟨fun _ _ => hoperand, nofun⟩
      | element text =>
          obtain ⟨_, _, heq⟩ := map_eq_ok.1 h
          obtain ⟨rfl, -⟩ := List.cons.inj heq
          exact ⟨nofun, nofun⟩
      | group inner =>
          obtain ⟨_, _, heq⟩ := map_eq_ok.1 h
          obtain ⟨rfl, -⟩ := List.cons.inj heq
          exact ⟨nofun, nofun⟩

/-- Pieces without operators leave an operand behind. -/
theorem operandAfter_of_above {operand : Bool} {pieces : List Piece} {span : List Lexeme}
    (h : classify operand pieces = .ok span) (habove : Above (Prefix.rank + 1) span)
    (hne : pieces ≠ []) : operandAfter operand pieces = true := by
  induction pieces generalizing operand span with
  | nil => exact absurd rfl hne
  | cons x pieces ih =>
      have hrest : ∀ {rest : List Lexeme}, classify true pieces = .ok rest →
          Above (Prefix.rank + 1) rest → operandAfter true pieces = true := by
        intro rest hrest habove
        cases pieces with
        | nil => rfl
        | cons y pieces => exact ih hrest habove (List.cons_ne_nil y pieces)
      cases x with
      | element text =>
          obtain ⟨rest, hclassify, rfl⟩ := map_eq_ok.1 h
          exact hrest hclassify (above_cons.1 habove).2
      | group inner =>
          obtain ⟨rest, hclassify, rfl⟩ := map_eq_ok.1 h
          exact hrest hclassify (above_cons.1 habove).2
      | mark mark =>
          exfalso
          obtain ⟨x, rest, rfl, -, hx⟩ := classify_mark.1 h
          obtain ⟨k, hk⟩ : ∃ k, x.rank? = some k := by
            rcases hx with ⟨_, op, _, rfl⟩ | ⟨_, op, _, rfl⟩
            · exact ⟨_, rfl⟩
            · exact ⟨_, rfl⟩
          have hlow := rank_le_of_rank? hk
          have hhigh := (above_cons.1 habove).1 k hk
          omega

/-- A span between operators: classified as if it started a text, and with groups of fewer than `n`
runes in which parentheses pair up. -/
structure Sound (n : Nat) (span : List Lexeme) : Prop where
  classified : ∃ pieces, classify false pieces = .ok span
  groups : ∀ inner, .group inner ∈ span → Balanced inner ∧ inner.length < n

variable {n : Nat} {span left right : List Lexeme}

/-- A split at a prefix operator has nothing on its left. -/
theorem Sound.split_prefix {op : Prefix} (h : Sound n span)
    (hsplit : splitLoosest? span = some (left, .prefixOp op, right)) :
    left = [] ∧ op.isKnown = true ∧ Sound n right := by
  obtain ⟨rfl, k, hk, hleft, -⟩ := splitLoosest?_eq_some_iff.1 hsplit
  obtain rfl : Prefix.rank = k := Option.some.inj hk
  obtain ⟨pieces, hclassify⟩ := h.classified
  obtain ⟨pl, pr, rfl, hpl, hpr⟩ := exists_of_classify_append hclassify
  have hfirst : operandAfter false pl = false := (operand_of_classify hpr).1 op rfl
  obtain ⟨mark, rest, rfl, hmark, hright⟩ := classify_prefix hpr
  refine ⟨?_, (spelling_of_asPrefix? hmark).2.1, ⟨rest, hright⟩, ?_⟩
  · -- No operator binds tighter: on the left are operands only, and behind one of them the mark
    -- would be infix.
    cases pl with
    | nil => exact (Except.ok.inj hpl).symm
    | cons x pl =>
        rw [operandAfter_of_above hpl hleft (List.cons_ne_nil x pl)] at hfirst
        cases hfirst
  · intro inner hmem
    exact h.groups inner (by simp [hmem])

/-- A split at an infix operator has a span on its left. -/
theorem Sound.split_infix {op : Infix} (h : Sound n span)
    (hsplit : splitLoosest? span = some (left, .infixOp op, right)) :
    left ≠ [] ∧ op.isKnown = true ∧ Sound n left ∧ Sound n right := by
  obtain ⟨rfl, -⟩ := splitLoosest?_eq_some_iff.1 hsplit
  obtain ⟨pieces, hclassify⟩ := h.classified
  obtain ⟨pl, pr, rfl, hpl, hpr⟩ := exists_of_classify_append hclassify
  have hoperand : operandAfter false pl = true := (operand_of_classify hpr).2 op rfl
  obtain ⟨mark, rest, rfl, hmark, hright⟩ := classify_infix hpr
  refine ⟨?_, (spelling_of_asInfix? hmark).2.1, ⟨⟨pl, hpl⟩, ?_⟩, ⟨rest, hright⟩, ?_⟩
  · rintro rfl
    rw [classify_nil_iff.1 hpl] at hoperand
    cases hoperand
  · intro inner hmem
    exact h.groups inner (by simp [hmem])
  · intro inner hmem
    exact h.groups inner (by simp [hmem])

theorem unaryWatched_eq {op : Prefix} (h : op.isKnown = true) (operand : Expr) :
    unaryWatched op operand = .ok (.unary op operand) := by
  rw [unaryWatched, Prefix.ofSpelling_spelling, if_pos h]

theorem binaryWatched_eq {op : Infix} (h : op.isKnown = true) (l r : Expr) :
    binaryWatched op l r = .ok (.binary op l r) := by
  rw [binaryWatched, Infix.ofSpelling_spelling, if_pos h]

theorem parseSpanWatched_eq {watched : Text → Except Stop Expr}
    {group : Text → Except ParseError Expr} (source : Text) (h : Sound n span)
    (hgroup : ∀ inner, Balanced inner → inner.length < n →
      watched inner = unalarmed (group inner)) :
    parseSpanWatched watched source span = unalarmed (parseSpan group source span) := by
  fun_induction parseSpan group source span with
  | case1 => rw [parseSpanWatched]; rfl
  | case2 x =>
      rw [parseSpanWatched]
      cases x with
      | group inner =>
          obtain ⟨hbalanced, hshort⟩ := h.groups inner (List.mem_singleton_self _)
          exact hgroup inner hbalanced hshort
      | element text => rfl
      | prefixOp op => rfl
      | infixOp op => rfl
  | case3 x y rest left op right hsplit hempty ih =>
      obtain ⟨-, hknown, hright⟩ := h.split_prefix hsplit
      rw [parseSpanWatched]
      split
      next hsplit' =>
        rw [hsplit] at hsplit'
        cases hsplit'
        rw [if_pos hempty, ih hright]
        simp only [unaryWatched_eq hknown]
        cases parseSpan group source right <;> rfl
      next hsplit' =>
        rw [hsplit] at hsplit'
        cases hsplit'
      next hnone _ => exact absurd hsplit (hnone _ _ _)
  | case4 x y rest left op right hsplit hempty =>
      exact absurd (List.isEmpty_iff.2 (h.split_prefix hsplit).1) hempty
  | case5 x y rest left op right hsplit ihl ihr =>
      obtain ⟨hne, hknown, hleft, hright⟩ := h.split_infix hsplit
      rw [parseSpanWatched]
      split
      next hsplit' =>
        rw [hsplit] at hsplit'
        cases hsplit'
      next hsplit' =>
        rw [hsplit] at hsplit'
        cases hsplit'
        rw [if_neg (by rwa [List.isEmpty_iff]), ihl hleft, ihr hright]
        simp only [binaryWatched_eq hknown]
        cases parseSpan group source left <;> cases parseSpan group source right <;> rfl
      next hnone => exact absurd hsplit (hnone _ _ _)
  | case6 x y rest hsign hchain =>
      rw [parseSpanWatched]
      split
      next hsplit => exact absurd hsplit (hsign _ _ _)
      next hsplit => exact absurd hsplit (hchain _ _ _)
      next => rfl

theorem parseTrimmedWatched_eq {depth : Nat} {source : Text} (h : Balanced source)
    (hdepth : source.length ≤ depth) :
    parseTrimmedWatched depth source = unalarmed (parseTrimmed depth source) := by
  induction depth generalizing source with
  | zero =>
      obtain rfl := List.length_eq_zero_iff.1 (Nat.le_zero.1 hdepth)
      rfl
  | succ depth ih =>
      cases source with
      | nil => rfl
      | cons r rest =>
          obtain ⟨pieces, hcuts⟩ := exists_cuts_of_balanced h [] none
          have hcut : cut (r :: rest) = .ok pieces := cutFrom_eq_ok_iff.2 hcuts
          simp only [parseTrimmedWatched, parseTrimmed, lexemes, hcut]
          change _ = unalarmed (match classify false pieces with
            | .error reason => _
            | .ok span => _)
          cases hspan : classify false pieces with
          | error reason => rfl
          | ok span =>
              have hsound : Sound (r :: rest).length span :=
                ⟨⟨pieces, hspan⟩, fun inner hmem =>
                  hcuts.balanced_of_mem (group_mem_of_classify hspan hmem)⟩
              apply parseSpanWatched_eq _ hsound
              intro inner hbalanced hshort
              apply ih hbalanced.trim
              have hle := Text.length_trim_le inner
              omega

/-- The parser never enters a branch for what should not happen. -/
theorem no_alarm_is_raised (bound : Nat) (source : Text) :
    parseWatched bound source = (parse bound source).mapError .rejected := by
  unfold parseWatched parse
  split
  · rfl
  · cases hbalance : balanceFrom 0 0 source with
    | error reason => rfl
    | ok _ =>
        have hbalanced := balanced_of_depthAfter (balanceFrom_eq_ok_iff.1 hbalance)
        exact parseTrimmedWatched_eq hbalanced.trim (Text.length_trim_le source)

-- It is the check of the parentheses that keeps the alarms silent.
example : parseTrimmedWatched 1 [.char ')'] = .error (.alarm (.parenthesis (.unexpectedClose 0))) :=
  rfl

end Tortoise.Expr
