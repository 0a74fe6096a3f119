/-!
# Numbers as text

Decimal writing of integers, and the two ways in which integers are read: plain decimals with
an optional sign, and numerals with a base mark (`0x`, `0o`, `0b`, a leading `0` for octal)
and underscores between digits. A read integer has to fit in 64 bits.
-/

namespace Tortoise.Text

def ofNat (n : Nat) : String := String.ofList (Nat.toDigits 10 n)

def ofInt (n : Int) : String :=
  if n < 0 then "-" ++ ofNat n.natAbs else ofNat n.natAbs

def ofInt64 (n : Int64) : String := ofInt n.toInt

def padLeft (width : Nat) (s : String) : String :=
  String.ofList (List.replicate (width - s.length) ' ') ++ s

inductive NumberError where
  | notANumber
  | outOfRange
deriving DecidableEq, Repr

def sign : List Char → Bool × List Char
  | '-' :: rest => (true, rest)
  | '+' :: rest => (false, rest)
  | s => (false, s)

def signed (negative : Bool) (magnitude : Nat) : Except NumberError Int64 :=
  if negative then
    if magnitude ≤ 0x8000000000000000 then .ok (Int64.ofInt (-magnitude)) else .error .outOfRange
  else
    if magnitude < 0x8000000000000000 then .ok (Int64.ofInt magnitude) else .error .outOfRange

def readDecimal (s : String) : Except NumberError Int64 :=
  let (negative, digits) := sign s.toList
  if digits.isEmpty || !digits.all Char.isDigit then .error .notANumber
  else signed negative (digits.foldl (fun n c => 10 * n + (c.toNat - '0'.toNat)) 0)

def digitOf? (c : Char) : Option Nat :=
  if c.isDigit then some (c.toNat - '0'.toNat)
  else if c.isAlpha then some (c.toLower.toNat - 'a'.toNat + 10)
  else none

def baseOf : List Char → Nat × List Char
  | '0' :: m :: d :: rest =>
    if m.toLower == 'b' then (2, d :: rest)
    else if m.toLower == 'o' then (8, d :: rest)
    else if m.toLower == 'x' then (16, d :: rest)
    else (8, m :: d :: rest)
  | '0' :: rest => (8, rest)
  | s => (10, s)

/-- Reads digits after the value `n`, underscores passed over; a value beyond 64 unsigned bits
is out of range at once. -/
def readDigits (base : Nat) : Nat → List Char → Except NumberError Nat
  | n, [] => .ok n
  | n, c :: rest =>
    if c == '_' then readDigits base n rest
    else match digitOf? c with
      | none => .error .notANumber
      | some d =>
        if base ≤ d then .error .notANumber
        else if 0x10000000000000000 ≤ base * n + d then .error .outOfRange
        else readDigits base (base * n + d) rest

inductive Gap where
  | start
  | digit
  | underscore
  | other
deriving DecidableEq

/-- Underscores stand only between digits, the base mark counting as a digit. -/
def underscoresOk (hexadecimal : Bool) : Gap → List Char → Bool
  | seen, [] => seen != .underscore
  | seen, c :: rest =>
    if c.isDigit || (hexadecimal && (digitOf? c).any (· < 16)) then
      underscoresOk hexadecimal .digit rest
    else if c == '_' then seen == .digit && underscoresOk hexadecimal .underscore rest
    else seen != .underscore && underscoresOk hexadecimal .other rest

def numeralUnderscoresOk : List Char → Bool
  | '0' :: m :: rest =>
    if m.toLower == 'x' then underscoresOk true .digit rest
    else if m.toLower == 'b' || m.toLower == 'o' then underscoresOk false .digit rest
    else underscoresOk false .digit (m :: rest)
  | s => underscoresOk false .start s

def readNumeral (s : String) : Except NumberError Int64 := do
  let (negative, numeral) := sign s.toList
  if numeral.isEmpty then throw .notANumber
  let (base, digits) := baseOf numeral
  let magnitude ← match readDigits base 0 digits with
    | .ok n => if digits.contains '_' && !numeralUnderscoresOk numeral then throw .notANumber
               else pure n
    | .error .outOfRange => pure (0x10000000000000000)
    | .error e => throw e
  signed negative magnitude

end Tortoise.Text
