import Tortoise.Text.Number
import Tortoise.Toml.Quoted

/-!
# Numbers and times of TOML

Integers are decimal with an optional sign, or have a base mark and no sign. Floats have a
fraction, an exponent or both, and have to be finite in double precision. Times are dates, times
of day and both together, the latter with or without an offset; seconds may be left out.
-/

namespace Tortoise.Toml

def withoutSign : List Char → List Char
  | '+' :: rest => rest
  | '-' :: rest => rest
  | cs => cs

/-- Digits with single underscores between them. -/
def isDigits : (afterDigit : Bool) → List Char → Bool
  | afterDigit, [] => afterDigit
  | afterDigit, c :: rest =>
    if c == '_' then afterDigit && isDigits false rest else c.isDigit && isDigits true rest

def isWhole (cs : List Char) : Bool :=
  isDigits false cs && (cs.head? != some '0' || cs.length == 1)

def decimal? (cs : List Char) : Option Scalar :=
  if isWhole (withoutSign cs) then (Text.readNumeral (String.ofList cs)).toOption.map .int
  else none

structure Decimal where
  whole : List Char
  fraction : List Char := []
  negative : Bool := false
  exponent : List Char := []

namespace Decimal

def digitsValue (cs : List Char) : Nat :=
  cs.foldl (fun n c => if c == '_' then n else 10 * n + (c.toNat - '0'.toNat)) 0

/-- Numbers from `2^1024 - 2^970` on round to infinity. -/
def overflow : Nat := Nat.pow 2 1024 - Nat.pow 2 970

def isFinite (f : Decimal) : Bool :=
  let fraction := f.fraction.filter (· != '_')
  let mantissa := digitsValue (f.whole ++ fraction)
  let exponent := digitsValue f.exponent
  if mantissa = 0 ∨ f.negative then
    mantissa < overflow * Nat.pow 10 (fraction.length + min exponent (f.whole.length + 1))
  else if 400 + fraction.length < exponent then false
  else mantissa * Nat.pow 10 exponent < overflow * Nat.pow 10 fraction.length

def withExponent (f : Decimal) (cs : List Char) : Option Decimal :=
  let digits := withoutSign cs
  if isDigits false digits then
    some { f with negative := cs.head? == some '-', exponent := digits }
  else none

def read? (cs : List Char) : Option Decimal :=
  let isMark (c : Char) : Bool := c == 'e' || c == 'E'
  let whole := cs.takeWhile fun c => c != '.' && !isMark c
  if !isWhole whole then none
  else match cs.drop whole.length with
    | [] => none
    | c :: rest =>
      if isMark c then withExponent { whole } rest
      else
        let fraction := rest.takeWhile fun c => !isMark c
        if !isDigits false fraction then none
        else match rest.drop fraction.length with
          | [] => some { whole, fraction }
          | _ :: exponent => withExponent { whole, fraction } exponent

end Decimal

def float? (cs : List Char) : Option Scalar := do
  let f ← Decimal.read? (withoutSign cs)
  if f.isFinite then some .float else none

def pair? (a b : Char) : Option Nat :=
  if a.isDigit && b.isDigit then
    some (10 * (a.toNat - '0'.toNat) + (b.toNat - '0'.toNat))
  else none

def isLeap (year : Nat) : Bool := year % 4 == 0 && (year % 100 != 0 || year % 400 == 0)

def daysIn (year month : Nat) : Nat :=
  if month = 2 then if isLeap year then 29 else 28
  else if month = 4 ∨ month = 6 ∨ month = 9 ∨ month = 11 then 30
  else 31

def date? : List Char → Option (List Char)
  | a :: b :: c :: d :: '-' :: m :: n :: '-' :: e :: f :: rest => do
    let century ← pair? a b
    let year ← pair? c d
    let month ← pair? m n
    let day ← pair? e f
    if 1 ≤ month ∧ month ≤ 12 ∧ 1 ≤ day ∧ day ≤ daysIn (100 * century + year) month then some rest
    else none
  | _ => none

def afterFraction (cs : List Char) : List Char :=
  match cs with
  | '.' :: rest =>
    let digits := rest.takeWhile Char.isDigit
    if digits.isEmpty then cs else rest.drop digits.length
  | _ => cs

def clock? : List Char → Option (List Char)
  | h :: i :: ':' :: m :: n :: rest => do
    let hour ← pair? h i
    let minute ← pair? m n
    if 24 ≤ hour ∨ 60 ≤ minute then none
    else match rest with
      | ':' :: s :: t :: rest => do
        let second ← pair? s t
        if 60 ≤ second then none else some (afterFraction rest)
      | _ => some rest
  | _ => none

def isOffset : List Char → Bool
  | ['Z'] => true
  | [s, h, i, ':', m, n] =>
    (s == '+' || s == '-') && (pair? h i).any (· ≤ 24) && (pair? m n).any (· ≤ 60)
  | _ => false

/-- Whether a text is a date, a time of day or both. Case does not matter, and a blank may stand
between date and time. -/
def isTime (cs : List Char) : Bool :=
  let cs := cs.map fun c =>
    if c == 't' || c == ' ' then 'T' else if c == 'z' then 'Z' else c
  match date? cs with
  | some [] => true
  | some ('T' :: rest) => (clock? rest).any fun rest => rest.isEmpty || isOffset rest
  | some _ => false
  | none => clock? cs == some []

def isTimeChar (c : Char) : Bool :=
  c.isDigit || ['-', ':', 'T', 't', ' ', '.', 'Z', 'z', '+'].contains c

def isFloatChar (c : Char) : Bool := c.isDigit || ['_', '.', '-', '+', 'e', 'E'].contains c

/-- Splits off the longest run of characters of a kind behind the first `n` characters. -/
def run (n : Nat) (p : Char → Bool) (cs : List Char) : List Char × List Char :=
  let tail := cs.drop n
  (cs.take n ++ tail.takeWhile p, tail.dropWhile p)

def based? (p : Char → Bool) (cs : List Char) : Option (Scalar × List Char) :=
  if !(cs[2]?).any p then none
  else
    let (word, rest) := run 2 (fun c => p c || c == '_') cs
    (Text.readNumeral (String.ofList word)).toOption.map fun n => (.int n, rest)

/-- Reads a decimal integer or a float; the first `n` characters are its sign. -/
def decimalOrFloat? (n : Nat) (cs : List Char) : Option (Scalar × List Char) :=
  let (word, rest) := run n (fun c => c.isDigit || c == '_') cs
  if (rest.head?).any (['.', 'e', 'E'].contains ·) then
    let (word, rest) := run word.length isFloatChar cs
    (float? word).map (·, rest)
  else (decimal? word).map (·, rest)

def trimRight (cs : List Char) : List Char := (cs.reverse.dropWhile (· == ' ')).reverse

def unsigned? (cs : List Char) : Option (Scalar × List Char) :=
  match cs with
  | '0' :: 'b' :: _ => based? (fun c => c == '0' || c == '1') cs
  | '0' :: 'o' :: _ => based? (fun c => '0' ≤ c && c ≤ '7') cs
  | '0' :: 'x' :: _ => based? (fun c => (Text.digitOf? c).any (· < 16)) cs
  | _ =>
    let rest := cs.dropWhile Char.isDigit
    if (rest.head?).any fun c => c == '-' || c == ':' then
      let (word, rest) := run 0 isTimeChar cs
      if isTime (trimRight word) then some (.time, rest) else none
    else decimalOrFloat? 0 cs

def number? (cs : List Char) : Option (Scalar × List Char) :=
  match cs with
  | 'i' :: 'n' :: 'f' :: rest => some (.float, rest)
  | 'n' :: 'a' :: 'n' :: rest => some (.float, rest)
  | c :: rest =>
    if c == '+' || c == '-' then
      match rest with
      | 'i' :: 'n' :: 'f' :: rest => some (.float, rest)
      | 'n' :: 'a' :: 'n' :: rest => some (.float, rest)
      | _ => if (rest.head?).any Char.isDigit then decimalOrFloat? 1 cs else none
    else if c.isDigit then unsigned? cs
    else none
  | [] => none

end Tortoise.Toml
