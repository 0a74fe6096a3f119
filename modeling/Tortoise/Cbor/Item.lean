import Tortoise.Text.Rune

/-!
# CBOR items

A CBOR item is a number, a string, a list, a map, a tagged item or a simple value. A map is kept
as the flat list of its keys and values. A text keeps the chunks in which it came, because each
chunk has to be well-formed by itself. Fractions are not told apart, as no field takes one.

`Item.encode` writes an item in the shortest form: definite lengths and shortest heads.
-/

namespace Tortoise.Cbor

inductive Item where
  | unsigned (n : Nat)
  /-- The integer `-1 - n`. -/
  | negative (n : Nat)
  | bytes (content : Bytes)
  | text (chunks : List Bytes)
  | array (items : List Item)
  | map (flat : List Item)
  | tag (number : Nat) (content : Item)
  | simple (n : Nat)
  | float

namespace Item

def ofInt (n : Int) : Item :=
  if 0 ≤ n then unsigned n.toNat else negative (-1 - n).toNat

def ofText (t : Text) : Item := text [t.bytes]

def ofFields (fields : List (Nat × Item)) : Item :=
  map (fields.flatMap fun (number, item) => [unsigned number, item])

end Item

def bigEndian : (width : Nat) → Nat → Bytes
  | 0, _ => []
  | width + 1, n => bigEndian width (n / 256) ++ [UInt8.ofNat (n % 256)]

def natOfBytes (b : Bytes) : Nat := b.foldl (fun n x => 256 * n + x.toNat) 0

/-- The shortest head of an item of a major type with an argument below 2^64. -/
def head (major n : Nat) : Bytes :=
  if n < 24 then [UInt8.ofNat (32 * major + n)]
  else if n < 0x100 then UInt8.ofNat (32 * major + 24) :: bigEndian 1 n
  else if n < 0x10000 then UInt8.ofNat (32 * major + 25) :: bigEndian 2 n
  else if n < 0x100000000 then UInt8.ofNat (32 * major + 26) :: bigEndian 4 n
  else UInt8.ofNat (32 * major + 27) :: bigEndian 8 n

mutual

def Item.encode : Item → Bytes
  | .unsigned n => head 0 n
  | .negative n => head 1 n
  | .bytes content => head 2 content.length ++ content
  | .text chunks => head 3 chunks.flatten.length ++ chunks.flatten
  | .array items => head 4 items.length ++ encodeAll items
  | .map flat => head 5 (flat.length / 2) ++ encodeAll flat
  | .tag number content => head 6 number ++ content.encode
  | .simple n => head 7 n
  | .float => [0xf9, 0, 0]

def encodeAll : List Item → Bytes
  | [] => []
  | item :: rest => item.encode ++ encodeAll rest

end

end Tortoise.Cbor
