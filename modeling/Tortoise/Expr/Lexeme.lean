import Tortoise.Expr.Basic
import Tortoise.Text.Class
import Tortoise.Text.Quoted

/-!
# Lexemes of an expression

An expression text is cut into elements, operator marks and parenthesised groups; the inside
of a group stays uncut. `and` and `or` are marks only where no letter or digit touches them.
A mark with nothing or another mark before it is a prefix operator, any other an infix operator.
-/

namespace Tortoise.Expr

/-- An operator as it is written, before its place makes it prefix or infix. -/
inductive Mark where
  | plus
  | minus
  | times
  | slash
  | and
  | or
  | equal
  | greater
  | less
  | bang
deriving DecidableEq

namespace Mark

def spelling : Mark → Text
  | plus => "+"
  | minus => "-"
  | times => "*"
  | slash => "/"
  | and => "and"
  | or => "or"
  | equal => "="
  | greater => ">"
  | less => "<"
  | bang => "!"

def asPrefix? : Mark → Option Prefix
  | minus => some .negate
  | bang => some .complement
  | _ => none

def asInfix? : Mark → Option Infix
  | plus => some .add
  | minus => some .sub
  | times => some .mul
  | slash => some .div
  | and => some .and
  | or => some .or
  | equal => some .equal
  | greater => some .greater
  | less => some .less
  | bang => none

def ofChar? : Char → Option Mark
  | '+' => some plus
  | '-' => some minus
  | '*' => some times
  | '/' => some slash
  | '=' => some equal
  | '>' => some greater
  | '<' => some less
  | '!' => some bang
  | _ => none

def ofRune? : Rune → Option Mark
  | .char c => ofChar? c
  | .stray _ => none

end Mark

inductive Reason where
  | tooLong (bound : Nat)
  | unexpectedClose (offset : Nat)
  | unclosed (count : Nat)
  | unclosedAt (offset : Nat)
  | empty
  | missingOperand
  | loneOperator (spelling : Text)
  | missingOperator
  | misplacedPrefix (op : Prefix)
  | notPrefix (mark : Mark)
  | notInfix (mark : Mark)
  | emptyElement
  | outOfRange
  | malformedIdentifier
deriving DecidableEq

def Reason.message : Reason → String
  | tooLong bound => s!"longer than {bound} bytes"
  | unexpectedClose offset => s!"unexpected ')' at offset {offset}"
  | unclosed count => s!"{count} unclosed '('"
  | unclosedAt offset => s!"unclosed '(' at offset {offset}"
  | empty => "empty expression"
  | missingOperand => "missing operand"
  | loneOperator spelling => "operator " ++ Text.quote spelling ++ " has no operand"
  | missingOperator => "missing operator between operands"
  | misplacedPrefix op => "misplaced unary operator " ++ Text.quote op.spelling
  | notPrefix mark => Text.quote mark.spelling ++ " is not a unary operator"
  | notInfix mark => Text.quote mark.spelling ++ " is not a binary operator"
  | emptyElement => "empty element"
  | outOfRange => "integer literal out of range"
  | malformedIdentifier => "malformed identifier"

structure ParseError where
  source : Text
  reason : Reason
deriving DecidableEq

def ParseError.message (e : ParseError) : String :=
  "unparseable expression " ++ Text.quote e.source ++ ": " ++ e.reason.message

inductive Piece where
  | element (text : Text)
  | mark (mark : Mark)
  | group (inner : Text)
deriving DecidableEq

/-- Where cutting stands: outside of all parentheses; inside, with `depth` more than one of them
open and the outermost opened at a byte offset; or within a word operator of which `more + 1`
runes are still to pass. -/
inductive Place where
  | outside
  | inside (depth : Nat) (opened : Nat)
  | word (more : Nat)

def flush (collected : Text) : List Piece :=
  let text := Text.trim collected.reverse
  if text.isEmpty then [] else [.element text]

def atBoundary (before : Option Rune) (after : Text) : Bool :=
  !before.any Rune.isWord && !after.head?.any Rune.isWord

def wordMark? (before : Option Rune) : Text → Option (Mark × Place)
  | .char 'a' :: .char 'n' :: .char 'd' :: after =>
    if atBoundary before after then some (.and, .word 1) else none
  | .char 'o' :: .char 'r' :: after =>
    if atBoundary before after then some (.or, .word 0) else none
  | _ => none

def mark? (before : Option Rune) (text : Text) : Option (Mark × Place) :=
  match text.head?.bind Mark.ofRune? with
  | some mark => some (mark, .outside)
  | none => wordMark? before text

/-- Cuts the text from `offset` on. `before` is the rune just passed and `collected` holds, in
reverse, the element or the inside of the group being read. -/
def cutFrom (place : Place) (collected : Text) (before : Option Rune) (offset : Nat) :
    Text → Except Reason (List Piece)
  | [] =>
    match place with
    | .inside _ opened => .error (.unclosedAt opened)
    | _ => .ok (flush collected)
  | r :: rest =>
    let next := offset + r.size
    match place with
    | .word 0 => cutFrom .outside collected (some r) next rest
    | .word (more + 1) => cutFrom (.word more) collected (some r) next rest
    | .inside depth opened =>
      if r.is '(' then cutFrom (.inside (depth + 1) opened) (r :: collected) (some r) next rest
      else if r.is ')' then
        match depth with
        | 0 => (cutFrom .outside [] (some r) next rest).map (.group collected.reverse :: ·)
        | depth + 1 => cutFrom (.inside depth opened) (r :: collected) (some r) next rest
      else cutFrom place (r :: collected) (some r) next rest
    | .outside =>
      if r.is '(' then
        (cutFrom (.inside 0 offset) [] (some r) next rest).map (flush collected ++ ·)
      else if r.is ')' then .error (.unexpectedClose offset)
      else match mark? before (r :: rest) with
        | some (mark, place) =>
          (cutFrom place [] (some r) next rest).map (flush collected ++ .mark mark :: ·)
        | none => cutFrom .outside (r :: collected) (some r) next rest

def cut (source : Text) : Except Reason (List Piece) := cutFrom .outside [] none 0 source

inductive Lexeme where
  | element (text : Text)
  | group (inner : Text)
  | prefixOp (op : Prefix)
  | infixOp (op : Infix)
deriving DecidableEq

/-- Turns marks into operators. `operand` says that an element or a group stands just before. -/
def classify : (operand : Bool) → List Piece → Except Reason (List Lexeme)
  | _, [] => .ok []
  | _, .element text :: rest => (classify true rest).map (.element text :: ·)
  | _, .group inner :: rest => (classify true rest).map (.group inner :: ·)
  | true, .mark mark :: rest =>
    match mark.asInfix? with
    | some op => (classify false rest).map (.infixOp op :: ·)
    | none => .error (.notInfix mark)
  | false, .mark mark :: rest =>
    match mark.asPrefix? with
    | some op => (classify false rest).map (.prefixOp op :: ·)
    | none => .error (.notPrefix mark)

def lexemes (source : Text) : Except Reason (List Lexeme) := do
  classify false (← cut source)

end Tortoise.Expr
