import Tortoise.Text.Class

/-!
# Source text without comments

The feed of a source is its characters with their positions, every comment `"…"` replaced by
one blank at its opening quote, and the way the source ends. A stray byte counts as one
character, U+FFFD. A source may end with a reader's failure instead of an end of input.
-/

namespace Tortoise

/-- Lines and columns count from 1; columns count characters. -/
structure Position where
  line : Nat
  column : Nat
deriving DecidableEq, Repr

namespace Position

def first : Position := ⟨1, 1⟩

def after (p : Position) (c : Char) : Position :=
  if c = '\n' then ⟨p.line + 1, 1⟩ else ⟨p.line, p.column + 1⟩

end Position

inductive LexCause where
  | unterminatedComment
  | unterminatedGroup
deriving DecidableEq

structure LexError where
  cause : LexCause
  pos : Position
deriving DecidableEq

def LexCause.message : LexCause → String
  | unterminatedComment => "unterminated comment"
  | unterminatedGroup => "unterminated parenthesized expression"

def LexError.message (e : LexError) : String :=
  s!"lexer error at line {e.pos.line}, column {e.pos.column}: " ++ e.cause.message

inductive ScanError where
  | lexical (error : LexError)
  /-- The source could not be read to its end. -/
  | reader (message : String)
deriving DecidableEq

def ScanError.message : ScanError → String
  | lexical error => error.message
  | reader message => message

structure Cell where
  char : Char
  pos : Position
deriving DecidableEq

inductive Ending where
  | eof (pos : Position)
  | broken (error : ScanError)
deriving DecidableEq

structure Feed where
  cells : List Cell
  ending : Ending
deriving DecidableEq

namespace Feed

def cons (c : Cell) (f : Feed) : Feed := { f with cells := c :: f.cells }

/-- How a source ends when its bytes are used up, inside the comment that opened at `comment`
or outside of comments. -/
def endingAt (failure : Option String) (comment : Option Position) (p : Position) : Ending :=
  match failure, comment with
  | some message, _ => .broken (.reader message)
  | none, some opened => .broken (.lexical ⟨.unterminatedComment, opened⟩)
  | none, none => .eof p

def readFrom (failure : Option String) : (comment : Option Position) → (p : Position) →
    Text → Feed
  | comment, p, [] => ⟨[], endingAt failure comment p⟩
  | none, p, r :: rest =>
    if r.shown = '"' then readFrom failure (some p) (p.after r.shown) rest
    else cons ⟨r.shown, p⟩ (readFrom failure none (p.after r.shown) rest)
  | some opened, p, r :: rest =>
    if r.shown = '"' then cons ⟨' ', opened⟩ (readFrom failure none (p.after r.shown) rest)
    else readFrom failure (some opened) (p.after r.shown) rest

/-- The feed of a source whose reader may fail with a message after the last byte. -/
def ofText (source : Text) (failure : Option String) : Feed :=
  readFrom failure none .first source

end Feed

end Tortoise
