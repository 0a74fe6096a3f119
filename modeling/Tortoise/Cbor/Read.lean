import Tortoise.Cbor.Item

/-!
# Reading CBOR

`decode` reads bytes that are one well-formed item and nothing else. Heads need not be the
shortest, and strings, lists and maps may have indefinite length, ended by a break. Lists, maps
and tags nest at most `maxNesting` deep, where the first tag of a run does not count, and a list
or map has at most `maxCount` members.
-/

namespace Tortoise.Cbor

def maxNesting : Nat := 1024

def maxCount : Nat := 131072

structure Head where
  major : Nat
  /-- The argument; `none` marks an indefinite length. -/
  argument : Option Nat
  /-- The low five bits of the first byte. -/
  info : Nat
deriving DecidableEq

def takeBytes (count : Nat) (b : Bytes) : Option (Bytes × Bytes) :=
  let taken := b.take count
  if taken.length = count then some (taken, b.drop count) else none

/-- Takes a head. A simple value below 32 has no second byte, and only strings, lists and maps
have an indefinite length. -/
def readHead : Bytes → Option (Head × Bytes)
  | [] => none
  | first :: rest =>
    let major := first.toNat / 32
    let info := first.toNat % 32
    let long (width : Nat) : Option (Head × Bytes) :=
      (takeBytes width rest).map fun (b, rest) => (⟨major, some (natOfBytes b), info⟩, rest)
    if info < 24 then some (⟨major, some info, info⟩, rest)
    else if info = 24 then
      (long 1).filter fun (h, _) => !(major == 7 && h.argument.any (· < 32))
    else if info = 25 then long 2
    else if info = 26 then long 4
    else if info = 27 then long 8
    else if info = 31 && 2 ≤ major && major ≤ 5 then some (⟨major, none, info⟩, rest)
    else none

def breakByte : UInt8 := 0xff

/-- The chunks of a string of indefinite length up to the break. Each has the major type of the
string and a definite length. -/
def readChunks (major : Nat) : (fuel : Nat) → Bytes → Option (List Bytes × Bytes)
  | 0, _ => none
  | fuel + 1, b =>
    if b.head? = some breakByte then some ([], b.tail)
    else do
      let (h, rest) ← readHead b
      let count ← if h.major = major then h.argument else none
      let (chunk, rest) ← takeBytes count rest
      let (more, rest) ← readChunks major fuel rest
      return (chunk :: more, rest)

def readMany (item : Bytes → Option (Item × Bytes)) : (count : Nat) → Bytes →
    Option (List Item × Bytes)
  | 0, b => some ([], b)
  | count + 1, b => do
    let (x, rest) ← item b
    let (more, rest) ← readMany item count rest
    return (x :: more, rest)

def readUntilBreak (item : Bytes → Option (Item × Bytes)) : (fuel : Nat) → Bytes →
    Option (List Item × Bytes)
  | 0, _ => none
  | fuel + 1, b =>
    if b.head? = some breakByte then some ([], b.tail)
    else do
      let (x, rest) ← item b
      let (more, rest) ← readUntilBreak item fuel rest
      return (x :: more, rest)

def readString (h : Head) (b : Bytes) : Option (List Bytes × Bytes) :=
  match h.argument with
  | some count => (takeBytes count b).map fun (chunk, rest) => ([chunk], rest)
  | none => readChunks h.major b.length b

def readMembers (item : Bytes → Option (Item × Bytes)) (width : Nat) (h : Head) (b : Bytes) :
    Option (List Item × Bytes) :=
  match h.argument with
  | some count => if count ≤ maxCount then readMany item (width * count) b else none
  | none =>
    (readUntilBreak item b.length b).filter fun (members, _) =>
      members.length % width == 0 && members.length / width ≤ maxCount

def simpleOf (h : Head) : Item :=
  if 25 ≤ h.info then .float else .simple (h.argument.getD 0)

/-- Reads one item in which `levels` further levels of nesting are allowed. `tagged` says that
the item stands directly behind a tag. As many units of fuel as there are bytes suffice. -/
def readItem : (fuel : Nat) → (levels : Nat) → (tagged : Bool) → Bytes → Option (Item × Bytes)
  | 0, _, _, _ => none
  | fuel + 1, levels, tagged, b => do
    let (h, rest) ← readHead b
    let members (width : Nat) : Option (List Item × Bytes) :=
      match levels with
      | 0 => none
      | levels + 1 => readMembers (readItem fuel levels false) width h rest
    match h.major with
    | 0 => return (.unsigned (h.argument.getD 0), rest)
    | 1 => return (.negative (h.argument.getD 0), rest)
    | 2 =>
      let (chunks, rest) ← readString h rest
      return (.bytes chunks.flatten, rest)
    | 3 =>
      let (chunks, rest) ← readString h rest
      return (.text chunks, rest)
    | 4 =>
      let (items, rest) ← members 1
      return (.array items, rest)
    | 5 =>
      let (flat, rest) ← members 2
      return (.map flat, rest)
    | 6 =>
      let inner ← match tagged, levels with
        | false, levels => some levels
        | true, 0 => none
        | true, levels + 1 => some levels
      let (content, rest) ← readItem fuel inner true rest
      return (.tag (h.argument.getD 0) content, rest)
    | _ => return (simpleOf h, rest)

def decode (b : Bytes) : Option Item :=
  match readItem b.length maxNesting false b with
  | some (item, []) => some item
  | _ => none

end Tortoise.Cbor
