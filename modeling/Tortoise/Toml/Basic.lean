import Tortoise.Text.Quoted

/-!
# TOML

A TOML text is a sequence of statements: headers of tables and of elements of table arrays, and
entries that give values to keys. A key has one or more parts. Floats and times only have to be
well formed; their values are not kept.
-/

namespace Tortoise.Toml

abbrev Key := List String

namespace Key

def isBare (c : Char) : Bool := c.isAlphanum || c == '_' || c == '-'

def quoteChar (c : Char) : List Char :=
  if c == '"' || c == '\\' then ['\\', c]
  else if c == '\x08' || c == '\t' || c == '\n' || c == '\x0c' || c == '\r' then
    '\\' :: (Text.controlName? c).toList
  else if c.toNat < 0x20 || c == '\x7f' then '\\' :: 'u' :: Text.hex 4 c.toNat
  else [c]

def renderPart (part : String) : String :=
  let cs := part.toList
  if !cs.isEmpty && cs.all isBare then part
  else String.ofList ('"' :: cs.flatMap quoteChar ++ ['"'])

def render (key : Key) : String := ".".intercalate (key.map renderPart)

end Key

inductive Scalar where
  | text (s : String)
  | int (n : Int64)
  | bool (b : Bool)
  | float
  | time
deriving DecidableEq

inductive Value where
  | scalar (s : Scalar)
  | array (items : List Value)
  | inlineTable (entries : List (Key × Value))

inductive Statement where
  | table (key : Key)
  | element (key : Key)
  | entry (key : Key) (value : Value)

end Tortoise.Toml
