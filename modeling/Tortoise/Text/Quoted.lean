import Tortoise.Text.Printable
import Tortoise.Text.Rune

/-!
# Quoted text

A quoted text stands between double quotes on one line of printable characters. Quotes,
backslashes and the seven named control characters get a backslash, stray bytes and other
control characters of ASCII are written `\xHH`, and every other character that is not
printable `\uHHHH` or `\UHHHHHHHH`.
-/

namespace Tortoise.Text

def hex : (width : Nat) → Nat → List Char
  | 0, _ => []
  | width + 1, n => hex width (n / 16) ++ [Nat.digitChar (n % 16)]

def isPrintable (c : Char) : Bool := printableRuns.contains c.toNat

def controlName? (c : Char) : Option Char :=
  match c with
  | '\x07' => some 'a'
  | '\x08' => some 'b'
  | '\x0c' => some 'f'
  | '\n' => some 'n'
  | '\r' => some 'r'
  | '\t' => some 't'
  | '\x0b' => some 'v'
  | _ => none

def quoteChar (c : Char) : List Char :=
  if c == '"' || c == '\\' then ['\\', c]
  else if isPrintable c then [c]
  else match controlName? c with
    | some name => ['\\', name]
    | none =>
      if c.toNat < 0x80 then '\\' :: 'x' :: hex 2 c.toNat
      else if c.toNat < 0x10000 then '\\' :: 'u' :: hex 4 c.toNat
      else '\\' :: 'U' :: hex 8 c.toNat

def quoteRune : Rune → List Char
  | .char c => quoteChar c
  | .stray b => '\\' :: 'x' :: hex 2 b.toNat

def quote (t : Text) : String := String.ofList ('"' :: t.flatMap quoteRune ++ ['"'])

end Tortoise.Text
