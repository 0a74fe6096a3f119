/-!
# Text that may hold broken bytes

A program text is a sequence of runes. A rune is a character, or a single byte that no
character of the UTF-8 reading covers, kept as it stands so that nothing is lost.
Reading goes from left to right; a byte that starts no complete character is a rune of its own.
-/

namespace Tortoise

abbrev Bytes := List UInt8

inductive Rune where
  | char (c : Char)
  | stray (byte : UInt8)
deriving DecidableEq, Repr

abbrev Text := List Rune

instance : LawfulBEq Text := inferInstanceAs (LawfulBEq (List Rune))

namespace Rune

def size : Rune → Nat
  | char c => c.utf8Size
  | stray _ => 1

/-- The character shown for a rune: U+FFFD stands for a stray byte. -/
def shown : Rune → Char
  | char c => c
  | stray _ => '\uFFFD'

def bytes : Rune → Bytes
  | char c => String.utf8EncodeChar c
  | stray b => [b]

def isChar : Rune → Bool
  | char _ => true
  | stray _ => false

def is (r : Rune) (c : Char) : Bool := r == char c

end Rune

namespace Text

def ofString (s : String) : Text := s.toList.map .char

instance : Coe String Text := ⟨ofString⟩

def toString (t : Text) : String := String.ofList (t.map Rune.shown)

def size (t : Text) : Nat := t.foldr (fun r n => r.size + n) 0

def bytes (t : Text) : Bytes := t.flatMap Rune.bytes

def isWellFormed (t : Text) : Bool := t.all Rune.isChar

def startsWith (w t : Text) : Bool := w.isPrefixOf t

/-- The pieces of `t` between occurrences of the character `c`; always at least one piece. -/
def splitOn (c : Char) : Text → List Text
  | [] => [[]]
  | r :: rest =>
    if r.is c then [] :: splitOn c rest
    else match splitOn c rest with
      | [] => [[r]]
      | piece :: more => (r :: piece) :: more

def isTail (b : UInt8) : Bool := 0x80 ≤ b && b < 0xC0

def payload (b : UInt8) : Nat := b.toNat % 64

/-- The character with code `n`, provided that it needs more than `least` allows
and is no surrogate. -/
def scalar? (least n : Nat) : Option Char :=
  if least ≤ n ∧ n.isValidChar then some (Char.ofNat n) else none

/-- The character that starts with the byte `a`, with the number of bytes after `a` it uses. -/
def character? (a : UInt8) (rest : Bytes) : Option (Char × Nat) :=
  if a < 0x80 then some (Char.ofNat a.toNat, 0)
  else if a < 0xC0 then none
  else if a < 0xE0 then
    match rest with
    | b :: _ =>
      if isTail b then (scalar? 0x80 (a.toNat % 32 * 64 + payload b)).map (·, 1) else none
    | [] => none
  else if a < 0xF0 then
    match rest with
    | b :: c :: _ =>
      if isTail b && isTail c then
        (scalar? 0x800 ((a.toNat % 16 * 64 + payload b) * 64 + payload c)).map (·, 2)
      else none
    | _ => none
  else if a < 0xF8 then
    match rest with
    | b :: c :: d :: _ =>
      if isTail b && isTail c && isTail d then
        (scalar? 0x10000
          (((a.toNat % 8 * 64 + payload b) * 64 + payload c) * 64 + payload d)).map (·, 3)
      else none
    | _ => none
  else none

/-- Reads bytes of which the first `skip` belong to a character already read. -/
def ofBytesAfter : (skip : Nat) → Bytes → Text
  | _, [] => []
  | skip + 1, _ :: rest => ofBytesAfter skip rest
  | 0, a :: rest =>
    match character? a rest with
    | some (c, used) => .char c :: ofBytesAfter used rest
    | none => .stray a :: ofBytesAfter 0 rest

def ofBytes (b : Bytes) : Text := ofBytesAfter 0 b

end Text

end Tortoise
