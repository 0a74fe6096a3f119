import Tortoise.Cbor.Item
import Tortoise.Text.Number

/-!
# Fields of a record

A record is a map whose keys number its fields. A key is an integer, not below -2^63, or the text
of the field's number; the first entry for a field counts and entries for other fields are passed
over. A null stands for a field left at its zero value. Tags are passed over too, except that a few
of them say what they must hold and that two of them make integers of byte strings.
-/

namespace Tortoise.Cbor

/-- The content must be of the kind that the tag announces: text for 0, a number for 1, a byte
string for 2 and 3. -/
def admits (number : Nat) (content : Item) : Bool :=
  match number, content with
  | 0, .text _ => true
  | 0, _ => false
  | 1, .unsigned _ => true
  | 1, .negative _ => true
  | 1, .float => true
  | 1, _ => false
  | 2, .bytes _ => true
  | 2, _ => false
  | 3, .bytes _ => true
  | 3, _ => false
  | _, _ => true

namespace Item

/-- The item behind its tags. The tags 2 and 3 make big integers and stay. -/
def untagged : Item → Option Item
  | tag number content =>
    if !admits number content then none
    else if number = 2 ∨ number = 3 then some (tag number content)
    else content.untagged
  | item => some item

def isNull : Item → Bool
  | simple n => n == 22 || n == 23
  | _ => false

/-- The integer that an item without outer tags stands for. Truth values are no integers. -/
def toInt? : Item → Option Int
  | unsigned n => some n
  | negative n => some (-1 - n)
  | tag 2 (bytes b) => some (natOfBytes b)
  | tag 3 (bytes b) => some (-1 - natOfBytes b)
  | simple n =>
    if n = 20 ∨ n = 21 then none else if n = 22 ∨ n = 23 then some 0 else some n
  | _ => none

def int64? (item : Item) : Option Int64 := do
  let n ← (← item.untagged).toInt?
  if -0x8000000000000000 ≤ n ∧ n < 0x8000000000000000 then some (Int64.ofInt n) else none

def uint8? (item : Item) : Option UInt8 := do
  let n ← (← item.untagged).toInt?
  if 0 ≤ n ∧ n < 256 then some (UInt8.ofNat n.toNat) else none

def textOfChunks? (chunks : List Bytes) : Option Text :=
  if chunks.all fun chunk => (Text.ofBytes chunk).isWellFormed then
    some (Text.ofBytes chunks.flatten)
  else none

def text? (item : Item) : Option Text := do
  match ← item.untagged with
  | text chunks => textOfChunks? chunks
  | other => if other.isNull then some [] else none

def list? (item : Item) : Option (List Item) := do
  match ← item.untagged with
  | array items => some items
  | other => if other.isNull then some [] else none

end Item

/-- The fields that a record gives, the first entry of each first. -/
abbrev Record := List (Nat × Item)

/-- The field that a key names: `some none` if it names no field at all, and `none` if it
cannot be a key. -/
def fieldOf (key : Item) : Option (Option Nat) :=
  match key with
  | .unsigned n => some (some n)
  | .negative n => if n < 0x8000000000000000 then some none else none
  | .text chunks => do
    let name ← Item.textOfChunks? chunks
    return match Text.readDecimal name.toString with
      | .ok n => if (Text.ofInt64 n : Text) = name then some n.toInt.toNat else none
      | .error _ => none
  | _ => none

def recordOf : List Item → Option Record
  | key :: value :: rest => do
    let field ← fieldOf key
    let more ← recordOf rest
    return match field with
      | some number => (number, value) :: more
      | none => more
  | _ => some []

namespace Record

def field {α : Type} (r : Record) (number : Nat) (zero : α) (read : Item → Option α) :
    Option α :=
  match r.lookup number with
  | none => some zero
  | some item => read item

end Record

/-- The record that an item holds; a null is a record without fields. -/
def Item.record? (item : Item) : Option Record := do
  match ← item.untagged with
  | .map flat => recordOf flat
  | other => if other.isNull then some [] else none

end Tortoise.Cbor
