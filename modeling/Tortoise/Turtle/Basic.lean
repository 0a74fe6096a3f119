import Tortoise.Log.Value
import Tortoise.Program.Instruction
import Tortoise.Turtle.Trig

/-!
# The turtle

A turtle walks in the plane with a pen. Its heading is a whole number of degrees from 0 to 359,
0 along the x axis, positive turns to the left. Positions are counted in 64ths in 32 bits that
wrap. A walk with the pen down leaves a segment behind; every walk adds to the distance
travelled.
-/

namespace Tortoise

/-- A point in 64ths. -/
structure Point where
  x : Int32
  y : Int32
deriving DecidableEq, Repr

namespace Point

def origin : Point := ⟨0, 0⟩

def add (p q : Point) : Point := ⟨p.x + q.x, p.y + q.y⟩

def sixteenthToEven (n : Nat) : Nat := Trig.halveToEven n 4

/-- A coordinate with two decimals, a half to the even one. A 64th is 25/16 hundredths. -/
def coordinate (v : Int32) : String :=
  let n := v.toInt
  let hundredths := sixteenthToEven (25 * n.natAbs)
  (if n < 0 then "-" else "") ++ Text.ofNat (hundredths / 100) ++ "."
    ++ String.ofList ((Text.ofNat (100 + hundredths % 100)).toList.drop 1)

def render (p : Point) : String := "(" ++ coordinate p.x ++ ", " ++ coordinate p.y ++ ")"

end Point

structure Pen where
  color : Int64 := 0
  thickness : Int64 := 1
  isDown : Bool := false
deriving DecidableEq

structure Segment where
  source : Point
  target : Point
  color : Int64
  thickness : Int64
deriving DecidableEq

structure Bounds where
  least : Point
  greatest : Point
deriving DecidableEq

def Bounds.extend (b : Bounds) (p : Point) : Bounds :=
  ⟨⟨min p.x b.least.x, min p.y b.least.y⟩, ⟨max p.x b.greatest.x, max p.y b.greatest.y⟩⟩

inductive Operation where
  | setColor (color : Int64)
  | setThickness (thickness : Int64)
  | setStroke (down : Bool)
  | move (distance : Int64) (source target : Point) (drawn : Bool)
  | turn (degrees heading : Int64)
deriving DecidableEq

namespace Operation

def name : Operation → String
  | setColor _ => "SetColor"
  | setThickness _ => "SetThickness"
  | setStroke _ => "SetStroke"
  | move .. => "Move"
  | turn .. => "Turn"

def attrs : Operation → List Log.Attr
  | setColor color => [("color", .int color.toInt)]
  | setThickness thickness => [("thickness", .int thickness.toInt)]
  | setStroke down => [("down", .bool down)]
  | move distance source target drawn =>
    [("distance", .int distance.toInt), ("from", .text source.render), ("to", .text target.render),
     ("drawn", .bool drawn)]
  | turn degrees heading => [("degrees", .int degrees.toInt), ("heading", .int heading.toInt)]

def render (op : Operation) : Text :=
  let item (a : Log.Attr) : Text := " " ++ a.1 ++ "=" ++ a.2.plain
  (op.name : Text) ++ (Log.sorted op.attrs).flatMap item

end Operation

structure Turtle where
  position : Point := .origin
  heading : Int64 := 0
  pen : Pen := {}
  segments : Array Segment := #[]
  /-- The distance travelled, in 64ths. -/
  travelled : Int32 := 0
deriving DecidableEq

namespace Turtle

def normalize (degrees : Int64) : Int64 := (degrees % 360 + 360) % 360

def displacement (heading distance : Int64) : Point :=
  let angle := Trig.radians heading.toNatClampNeg
  ⟨.ofInt (Trig.scale64 distance.toInt (.ofFloat (Trig.cosine angle))),
   .ofInt (Trig.scale64 distance.toInt (.ofFloat (Trig.sine angle)))⟩

def inSixtyFourths (distance : Int64) : Int32 := (distance <<< 6).toInt32

def abs (n : Int64) : Int64 := if n < 0 then -n else n

def move (t : Turtle) (distance : Int64) : Turtle × Operation :=
  let source := t.position
  let target := source.add (displacement t.heading distance)
  let drawn := t.pen.isDown && distance != 0
  let segments :=
    if drawn then t.segments.push ⟨source, target, t.pen.color, t.pen.thickness⟩ else t.segments
  ({ t with position := target, segments, travelled := t.travelled + inSixtyFourths (abs distance) },
   .move distance source target drawn)

def turn (t : Turtle) (degrees : Int64) : Turtle × Operation :=
  let heading := normalize (t.heading + degrees)
  ({ t with heading }, .turn degrees heading)

def perform (t : Turtle) (action : Action) (n : Int64) : Turtle × Operation :=
  match action with
  | .color => ({ t with pen.color := n }, .setColor n)
  | .thickness => ({ t with pen.thickness := n }, .setThickness n)
  | .stroke => ({ t with pen.isDown := n != 0 }, .setStroke (n != 0))
  | .move => t.move n
  | .turn => t.turn n

/-- The smallest rectangle that holds the origin and all segments. -/
def bounds (t : Turtle) : Bounds :=
  t.segments.foldl (fun b s => (b.extend s.source).extend s.target) ⟨.origin, .origin⟩

def roundedDistance (t : Turtle) : Int := ((t.travelled + 32) >>> 6).toInt

end Turtle

end Tortoise
