import Tortoise.Token.Basic

/-!
# Scanning tokens

`Feed.next` takes one token off a feed. At the end of a feed it gives the end token, or the
error that broke the source, again and again. A run that touches a broken end is lost to the
error, and so is a group that the end leaves open.
-/

namespace Tortoise

namespace Cell

def rune (c : Cell) : Rune := .char c.char

def isBlank (c : Cell) : Bool := c.rune.isBlank

end Cell

/-- Takes a run in parentheses off a list that starts with its opening parenthesis; `depth`
parentheses are open already. -/
def takeGroup : (depth : Nat) → List Cell → Option (List Cell × List Cell)
  | _, [] => none
  | depth, c :: rest =>
    if c.char = '(' then (takeGroup (depth + 1) rest).map fun (group, more) => (c :: group, more)
    else if c.char = ')' ∧ depth ≤ 1 then some ([c], rest)
    else (takeGroup (if c.char = ')' then depth - 1 else depth) rest).map
      fun (group, more) => (c :: group, more)

namespace Feed

def exhausted (f : Feed) : Feed := { f with cells := [] }

def skipBlanks (f : Feed) : Feed := { f with cells := f.cells.dropWhile Cell.isBlank }

def finish (f : Feed) : Except ScanError Token :=
  match f.ending with
  | .eof p => .ok ⟨.eof, [], p⟩
  | .broken error => .error error

def nextRun (c : Cell) (f : Feed) : Except ScanError Token × Feed :=
  let (run, rest) := f.cells.span fun d => !d.isBlank
  let kind := if c.rune.isUpper || c.rune.isDigit then .expression else .keyword
  match rest, f.ending with
  | [], .broken error => (.error error, f.exhausted)
  | _, _ => (.ok ⟨kind, run.map Cell.rune, c.pos⟩, { f with cells := rest })

def nextGroup (c : Cell) (f : Feed) : Except ScanError Token × Feed :=
  match takeGroup 0 f.cells, f.ending with
  | some (group, rest), _ =>
    (.ok ⟨.expression, group.map Cell.rune, c.pos⟩, { f with cells := rest })
  | none, .eof _ => (.error (.lexical ⟨.unterminatedGroup, c.pos⟩), f.exhausted)
  | none, .broken error => (.error error, f.exhausted)

def next (f : Feed) : Except ScanError Token × Feed :=
  let f := f.skipBlanks
  match f.cells with
  | [] => (f.finish, f)
  | c :: _ => if c.char = '(' then nextGroup c f else nextRun c f

/-- The tokens of a feed before its end, at most `count` of them, and how they end: with the
end token or with an error. A feed has no more tokens than cells. -/
def tokensUpTo : (count : Nat) → Feed → List Token × Except ScanError Token
  | 0, f => ([], f.finish)
  | count + 1, f =>
    match f.next with
    | (.error error, _) => ([], .error error)
    | (.ok t, rest) =>
      if t.kind = .eof then ([], .ok t)
      else
        let (more, last) := tokensUpTo count rest
        (t :: more, last)

def tokens (f : Feed) : List Token × Except ScanError Token := tokensUpTo f.cells.length f

end Feed

end Tortoise
