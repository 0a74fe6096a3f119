import Tortoise.Text.Letter
import Tortoise.Text.Rune

/-!
# Classes of runes

Which runes are letters, digits or blanks. A stray byte belongs to no class.
-/

namespace Tortoise

namespace Text

/-- The blanks: the characters with the White_Space property. -/
def blankRuns : CodeRuns :=
  [⟨0x9, 0xd, 1⟩, ⟨0x20, 0x20, 1⟩, ⟨0x85, 0x85, 1⟩, ⟨0xa0, 0xa0, 1⟩, ⟨0x1680, 0x1680, 1⟩,
   ⟨0x2000, 0x200a, 1⟩, ⟨0x2028, 0x2029, 1⟩, ⟨0x202f, 0x202f, 1⟩, ⟨0x205f, 0x205f, 1⟩,
   ⟨0x3000, 0x3000, 1⟩]

end Text

namespace Rune

def isIn (runs : Text.CodeRuns) : Rune → Bool
  | char c => runs.contains c.toNat
  | stray _ => false

def isUpper (r : Rune) : Bool := r.isIn Text.upperRuns

def isLetter (r : Rune) : Bool := r.isIn Text.letterRuns

def isDigit (r : Rune) : Bool := r.isIn Text.digitRuns

def isBlank (r : Rune) : Bool := r.isIn Text.blankRuns

def isWord (r : Rune) : Bool := r.isLetter || r.isDigit

def isAsciiDigit : Rune → Bool
  | char c => c.isDigit
  | stray _ => false

def digitValue : Rune → Nat
  | char c => if c.isDigit then c.toNat - '0'.toNat else 0
  | stray _ => 0

end Rune

namespace Text

def trim (t : Text) : Text :=
  ((t.dropWhile Rune.isBlank).reverse.dropWhile Rune.isBlank).reverse

/-- A user identifier: an uppercase letter followed by letters and digits. -/
def isIdentifier : Text → Bool
  | [] => false
  | r :: rest => r.isUpper && rest.all Rune.isWord

def isNumeral (t : Text) : Bool := !t.isEmpty && t.all Rune.isAsciiDigit

def numeralValue (t : Text) : Nat := t.foldl (fun n r => 10 * n + r.digitValue) 0

end Text

end Tortoise
