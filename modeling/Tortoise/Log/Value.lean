import Tortoise.Duration
import Tortoise.Text.Rune

/-!
# Logged values

An attribute of a log line is a key with a value: a text, an integer, a truth value, a duration
or a table of integers.
-/

namespace Tortoise.Log

inductive Value where
  | text (t : Text)
  | int (n : Int)
  | bool (b : Bool)
  | duration (d : Duration)
  /-- Integers by name, in no particular order. -/
  | table (entries : List (Text × Int64))

abbrev Attr := Text × Value

def bytesLe : Bytes → Bytes → Bool
  | [], _ => true
  | _ :: _, [] => false
  | x :: xs, y :: ys => x < y || (x == y && bytesLe xs ys)

def textLe (a b : Text) : Bool := bytesLe a.bytes b.bytes

def sorted {α : Type} (entries : List (Text × α)) : List (Text × α) :=
  entries.mergeSort fun a b => textLe a.1 b.1

def boolText (b : Bool) : String := if b then "true" else "false"

def Value.plain : Value → Text
  | text t => t
  | int n => Text.ofInt n
  | bool b => boolText b
  | duration d => d.render
  | table entries =>
    let items := (sorted entries).map fun (name, n) => name ++ (":" ++ Text.ofInt64 n : String)
    "map[" ++ ([Rune.char ' '].intercalate items) ++ "]"

end Tortoise.Log
