import Tortoise.Expr.Lexeme

/-!
# Reading expressions

A span of lexemes is split at its loosest operator, the leftmost one of those, so that a chain
of operators of one rank groups to the right: `10-4-3` is `10-(4-3)`. Groups are read the same
way. Either the whole text is an expression or there is no tree at all.
-/

namespace Tortoise.Expr

def defaultBound : Nat := 256

/-- The bound that a setting selects; one that is not positive selects the default. -/
def boundOf (setting : Int) : Nat := if setting ≤ 0 then defaultBound else setting.toNat

def balanceFrom (depth offset : Nat) : Text → Except Reason Unit
  | [] => if depth = 0 then .ok () else .error (.unclosed depth)
  | r :: rest =>
    if r.is '(' then balanceFrom (depth + 1) (offset + r.size) rest
    else if r.is ')' then
      match depth with
      | 0 => .error (.unexpectedClose offset)
      | depth + 1 => balanceFrom depth (offset + r.size) rest
    else balanceFrom depth (offset + r.size) rest

def Lexeme.rank? : Lexeme → Option Nat
  | .infixOp op => some op.rank
  | .prefixOp _ => some Prefix.rank
  | _ => none

def loosest? (span : List Lexeme) : Option Nat := (span.filterMap Lexeme.rank?).min?

def splitAtRank? (rank : Nat) : List Lexeme → Option (List Lexeme × Lexeme × List Lexeme)
  | [] => none
  | x :: rest =>
    if x.rank? = some rank then some ([], x, rest)
    else (splitAtRank? rank rest).map fun (left, op, right) => (x :: left, op, right)

def splitLoosest? (span : List Lexeme) : Option (List Lexeme × Lexeme × List Lexeme) :=
  (loosest? span).bind (splitAtRank? · span)

theorem append_of_splitAtRank? {rank : Nat} {span left right : List Lexeme} {op : Lexeme}
    (h : splitAtRank? rank span = some (left, op, right)) : span = left ++ op :: right := by
  induction span generalizing left with
  | nil => simp [splitAtRank?] at h
  | cons x rest ih =>
      simp only [splitAtRank?] at h
      split at h
      · simp_all
      · simp only [Option.map_eq_some_iff, Prod.exists, Prod.mk.injEq] at h
        obtain ⟨l, o, r, hs, rfl, rfl, rfl⟩ := h
        rw [ih hs, List.cons_append]

/-- Splitting loses nothing. -/
theorem append_of_splitLoosest? {span left right : List Lexeme} {op : Lexeme}
    (h : splitLoosest? span = some (left, op, right)) : span = left ++ op :: right := by
  obtain ⟨rank, _, hs⟩ := Option.bind_eq_some_iff.1 h
  exact append_of_splitAtRank? hs

def parseElement (element : Text) : Except ParseError Expr :=
  let text := element.trim
  if text.isEmpty then .error ⟨text, .emptyElement⟩
  else if text.isNumeral then
    if text.numeralValue < 0x8000000000000000 then .ok (.literal (Int64.ofNat text.numeralValue))
    else .error ⟨text, .outOfRange⟩
  else if text.isIdentifier then .ok (.var text)
  else .error ⟨text, .malformedIdentifier⟩

def parseSingle (group : Text → Except ParseError Expr) (source : Text) :
    Lexeme → Except ParseError Expr
  | .group inner => group inner
  | .element text => parseElement text
  | .prefixOp op => .error ⟨source, .loneOperator op.spelling⟩
  | .infixOp op => .error ⟨source, .loneOperator op.spelling⟩

def parseSpan (group : Text → Except ParseError Expr) (source : Text) :
    List Lexeme → Except ParseError Expr
  | [] => .error ⟨source, .missingOperand⟩
  | [x] => parseSingle group source x
  | x :: y :: rest =>
    match _split : splitLoosest? (x :: y :: rest) with
    | some (left, .prefixOp op, right) =>
      if left.isEmpty then (parseSpan group source right).map (.unary op ·)
      else .error ⟨source, .misplacedPrefix op⟩
    | some (left, .infixOp op, right) => do
      let l ← parseSpan group source left
      let r ← parseSpan group source right
      return .binary op l r
    | _ => .error ⟨source, .missingOperator⟩
termination_by span => span.length
decreasing_by
  all_goals
    have hlen := congrArg List.length (append_of_splitLoosest? _split)
    simp only [List.length_cons, List.length_append] at hlen ⊢
    omega

/-- Reads a text without outer blanks, in which parentheses nest less than `depth` deep. A
text of `depth` runes does. -/
def parseTrimmed : (depth : Nat) → Text → Except ParseError Expr
  | _, [] => .error ⟨[], .empty⟩
  | 0, source => .error ⟨source, .empty⟩
  | depth + 1, source =>
    match lexemes source with
    | .error reason => .error ⟨source, reason⟩
    | .ok span => parseSpan (fun inner => parseTrimmed depth inner.trim) source span

def parse (bound : Nat) (source : Text) : Except ParseError Expr :=
  if bound < source.size then .error ⟨source, .tooLong bound⟩
  else match balanceFrom 0 0 source with
    | .error reason => .error ⟨source, reason⟩
    | .ok () => parseTrimmed source.length source.trim

end Tortoise.Expr
