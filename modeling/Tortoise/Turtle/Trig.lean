/-!
# Sine and cosine of whole degrees

Sine and cosine in double precision, by reduction to the octant around a multiple of π/2 and a
polynomial there. The results are then exact dyadic fractions, so that all further arithmetic
is arithmetic of integers.
-/

namespace Tortoise.Trig

def pi : Float := 3.14159265358979323846264338327950288

def perQuarter : Float := 1.27323954473516268615107010698

/-- π/4 in three parts of falling size, the first two with few digits, so that small multiples
of them are exact. -/
def quarter : Float × Float × Float :=
  (7.85398125648498535156e-1, 3.77489470793079817668e-8, 2.69515142907905952645e-15)

def horner (z : Float) : List Float → Float
  | [] => 0
  | c :: rest => rest.foldl (fun y a => y * z + a) c

def sineNearZero (z : Float) : Float :=
  let zz := z * z
  z + z * zz * horner zz
    [1.58962301576546568060e-10, -2.50507477628578072866e-8, 2.75573136213857245213e-6,
     -1.98412698295895385996e-4, 8.33333333332211858878e-3, -1.66666666666666307295e-1]

def cosineNearZero (z : Float) : Float :=
  let zz := z * z
  1.0 - 0.5 * zz + zz * zz * horner zz
    [-1.13585365213876817300e-11, 2.08757008419747316778e-9, -2.75573141792967388112e-7,
     2.48015872888517045348e-5, -1.38888888888730564116e-3, 4.16666666666665929218e-2]

/-- The number of right angles nearest to an angle that is not negative, and what remains. -/
def reduce (x : Float) : Nat × Float :=
  let octant := (x * perQuarter).toUInt64.toNat
  let even := octant + octant % 2
  let y := Float.ofNat even
  let (a, b, c) := quarter
  (even / 2 % 4, ((x - y * a) - y * b) - y * c)

def cosine (x : Float) : Float :=
  match reduce x with
  | (0, z) => cosineNearZero z
  | (1, z) => -(sineNearZero z)
  | (2, z) => -(cosineNearZero z)
  | (_, z) => sineNearZero z

def sine (x : Float) : Float :=
  match reduce x with
  | (0, z) => sineNearZero z
  | (1, z) => cosineNearZero z
  | (2, z) => -(sineNearZero z)
  | (_, z) => -(cosineNearZero z)

def radians (degrees : Nat) : Float := Float.ofNat degrees * pi / 180

structure Dyadic where
  mantissa : Int
  exponent : Int
deriving DecidableEq

def Dyadic.ofFloat (x : Float) : Dyadic :=
  let bits := x.toBits.toNat
  let fraction := bits % 0x10000000000000
  let scale := bits / 0x10000000000000 % 0x800
  let magnitude : Nat := if scale = 0 then fraction else fraction + 0x10000000000000
  { mantissa := if bits < 0x8000000000000000 then magnitude else -magnitude
    exponent := (max scale 1 : Nat) - 1075 }

def halveToEven (n k : Nat) : Nat :=
  let unit := Nat.pow 2 k
  let q := n / unit
  let r := n % unit
  if unit < 2 * r ∨ (unit = 2 * r ∧ q % 2 = 1) then q + 1 else q

/-- `n` rounded to 53 binary digits, a half to the even side, as a number and an exponent. -/
def toDouble (n : Nat) : Nat × Nat :=
  let k := n.log2 - 52
  (halveToEven n k, k)

def roundAway (n : Nat) (e : Int) : Nat :=
  if 0 ≤ e then n * Nat.pow 2 e.toNat
  else (n + Nat.pow 2 ((-e).toNat - 1)) / Nat.pow 2 (-e).toNat

/-- The product of a distance and a dyadic fraction in double precision, in 64ths, rounded to
the nearest integer, a half away from zero. -/
def scale64 (distance : Int) (factor : Dyadic) : Int :=
  let (n, k) := toDouble (distance.natAbs * factor.mantissa.natAbs)
  let magnitude := roundAway n (k + factor.exponent + 6)
  if distance * factor.mantissa < 0 then -magnitude else magnitude

end Tortoise.Trig
