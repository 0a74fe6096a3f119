import Tortoise.Text.Number

/-!
# Durations

A duration is a count of nanoseconds in 64 bits. It is written in hours, minutes and seconds, or
below one second in the largest unit of which it has one, without zeros at the end of fractions.
-/

namespace Tortoise

structure Duration where
  nanoseconds : Int64
deriving DecidableEq

namespace Duration

def zero : Duration := ⟨0⟩

/-- A number of seconds, in arithmetic that wraps. -/
def ofSeconds (n : Int64) : Duration := ⟨n * 1000000000⟩

def fraction (places n : Nat) : String :=
  let digits := (Text.ofNat (Nat.pow 10 places + n)).toList.drop 1
  let significant := (digits.reverse.dropWhile (· == '0')).reverse
  if significant.isEmpty then "" else String.ofList ('.' :: significant)

def decimal (places n : Nat) : String :=
  Text.ofNat (n / Nat.pow 10 places) ++ fraction places (n % Nat.pow 10 places)

def renderMagnitude (n : Nat) : String :=
  if n = 0 then "0s"
  else if n < 1000 then Text.ofNat n ++ "ns"
  else if n < 1000000 then decimal 3 n ++ "µs"
  else if n < 1000000000 then decimal 6 n ++ "ms"
  else
    let seconds := n / 1000000000
    let minutes := seconds / 60
    let hours := minutes / 60
    (if hours = 0 then "" else Text.ofNat hours ++ "h")
      ++ (if minutes = 0 then "" else Text.ofNat (minutes % 60) ++ "m")
      ++ Text.ofNat (seconds % 60) ++ fraction 9 (n % 1000000000) ++ "s"

def render (d : Duration) : String :=
  let n := d.nanoseconds.toInt
  if n < 0 then "-" ++ renderMagnitude n.natAbs else renderMagnitude n.natAbs

end Duration

end Tortoise
