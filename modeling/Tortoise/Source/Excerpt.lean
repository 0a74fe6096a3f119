import Tortoise.Text.Number
import Tortoise.Text.Rune

/-!
# Excerpts of a source

An excerpt shows the line of an error with up to two lines before and after it, each behind its
number, and a caret under the column of the error. Tabs of the line are kept in front of the
caret, so that it stands under its rune.
-/

namespace Tortoise.Excerpt

def reach : Nat := 2

def withoutReturns (line : Text) : Text :=
  (line.reverse.dropWhile (·.is '\r')).reverse

def blanks (count : Nat) : Text := List.replicate count (.char ' ')

def padding (line : Text) (column : Nat) : Text :=
  let shown := (line.take (column - 1)).map fun r => if r.is '\t' then r else .char ' '
  shown ++ blanks (column - 1 - shown.length)

/-- A shown line behind its number; the line of the error has a mark and its caret below. -/
def row (width number : Nat) (marked : Bool) (column : Nat) (line : Text) : Text :=
  let gutter : Text := Text.padLeft width (Text.ofNat number) ++ " | "
  if marked then
    "> " ++ gutter ++ line ++ "\n"
      ++ blanks (2 + gutter.length) ++ padding line column ++ "^\n"
  else "  " ++ gutter ++ line ++ "\n"

def render (source : Text) (line column : Int) : Text :=
  if source.isEmpty || line ≤ 0 then []
  else
    let lines := Text.splitOn '\n' source
    let number := line.toNat
    if lines.length < number then []
    else
      let first := number - 1 - reach
      let past := min (number + reach) lines.length
      let width := (Text.ofNat past).length
      ((lines.take past).drop first).zipIdx (first + 1) |>.flatMap fun (text, n) =>
        row width n (n == number) column.toNat (withoutReturns text)

end Tortoise.Excerpt
