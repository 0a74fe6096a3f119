import Tortoise.Toml.Number
import Tortoise.Text.Rune

/-!
# Statements of TOML

`parse` reads a text into its statements. Arrays and inline tables may go over several lines and
may end in a comma. Readers of nested values take fuel, of which a text never needs more than
twice its length; `parse` supplies it.
-/

namespace Tortoise.Toml

def skipBlanks (cs : List Char) : List Char := cs.dropWhile isBlank

def skipComment (cs : List Char) : List Char := cs.dropWhile fun c => !isNewline c

def skipSpace : (inComment : Bool) → List Char → List Char
  | _, [] => []
  | true, c :: rest => skipSpace (!isNewline c) rest
  | false, c :: rest =>
    if isBlank c || isNewline c then skipSpace false rest
    else if c == '#' then skipSpace true rest
    else c :: rest

def part? : List Char → Option (String × List Char)
  | '"' :: rest => (basic rest).map fun (content, rest) => (String.ofList content, rest)
  | '\'' :: rest => (literal rest).map fun (content, rest) => (String.ofList content, rest)
  | cs =>
    let name := cs.takeWhile Key.isBare
    if name.isEmpty then none else some (String.ofList name, cs.drop name.length)

/-- Reads a key with points between its parts up to the character `close`. -/
def key? (close : Char) : (fuel : Nat) → List Char → Option (Key × List Char)
  | 0, _ => none
  | fuel + 1, cs => do
    let (name, rest) ← part? (skipBlanks cs)
    match skipBlanks rest with
    | [] => none
    | c :: rest =>
      if c == close then some ([name], rest)
      else if c == '.' then
        let (more, rest) ← key? close fuel rest
        return (name :: more, rest)
      else none

def scalar? : List Char → Option (Scalar × List Char)
  | 't' :: 'r' :: 'u' :: 'e' :: rest => some (.bool true, rest)
  | 'f' :: 'a' :: 'l' :: 's' :: 'e' :: rest => some (.bool false, rest)
  | cs =>
    match string? cs with
    | some (content, rest) => some (.text (String.ofList content), rest)
    | none => number? cs

mutual

def value? : (fuel : Nat) → List Char → Option (Value × List Char)
  | 0, _ => none
  | fuel + 1, cs =>
    match skipBlanks cs with
    | '[' :: rest => (items? fuel rest).map fun (items, rest) => (.array items, rest)
    | '{' :: rest => (entries? fuel rest).map fun (entries, rest) => (.inlineTable entries, rest)
    | cs => (scalar? cs).map fun (s, rest) => (.scalar s, rest)

def items? : (fuel : Nat) → List Char → Option (List Value × List Char)
  | 0, _ => none
  | fuel + 1, cs =>
    match skipSpace false cs with
    | ']' :: rest => some ([], rest)
    | cs => do
      let (item, rest) ← value? fuel cs
      match skipSpace false rest with
      | ']' :: rest => some ([item], rest)
      | ',' :: rest =>
        let (items, rest) ← items? fuel rest
        return (item :: items, rest)
      | _ => none

def entries? : (fuel : Nat) → List Char → Option (List (Key × Value) × List Char)
  | 0, _ => none
  | fuel + 1, cs =>
    match skipSpace false cs with
    | '}' :: rest => some ([], rest)
    | cs => do
      let (key, rest) ← key? '=' cs.length cs
      let (value, rest) ← value? fuel rest
      match skipSpace false rest with
      | '}' :: rest => some ([(key, value)], rest)
      | ',' :: rest =>
        let (entries, rest) ← entries? fuel rest
        return ((key, value) :: entries, rest)
      | _ => none

end

def statement? (cs : List Char) : Option (Statement × List Char) := do
  match cs with
  | '[' :: '[' :: rest =>
    let (key, rest) ← key? ']' cs.length rest
    match rest with
    | ']' :: rest => some (.element key, rest)
    | _ => none
  | '[' :: rest =>
    let (key, rest) ← key? ']' cs.length rest
    return (.table key, rest)
  | _ =>
    let (key, rest) ← key? '=' cs.length cs
    let (value, rest) ← value? (2 * rest.length + 2) rest
    return (.entry key value, rest)

def afterStatement (cs : List Char) : Option (List Char) :=
  match skipBlanks cs with
  | [] => some []
  | c :: rest =>
    if isNewline c then some rest
    else if c == '#' then some (skipComment rest)
    else none

def statements? : (fuel : Nat) → List Char → Option (List Statement)
  | 0, _ => none
  | fuel + 1, cs =>
    match skipSpace false cs with
    | [] => some []
    | cs => do
      let (s, rest) ← statement? cs
      let rest ← afterStatement rest
      let more ← statements? fuel rest
      return s :: more

/-- The characters of a text: no stray bytes, no control characters but tabs and line ends, and
no carriage return without a newline behind it. -/
def characters? : Text → Option (List Char)
  | [] => some []
  | .stray _ :: _ => none
  | .char c :: rest =>
    let isControl := c.toNat < 0x20 || c == '\x7f'
    let isAllowed := isBlank c || c == '\n' || (c == '\r' && rest.head? == some (.char '\n'))
    if isControl && !isAllowed then none else (characters? rest).map (c :: ·)

def withoutMark : Bytes → Bytes
  | 0xEF :: 0xBB :: 0xBF :: rest => rest
  | 0xFF :: 0xFE :: rest => rest
  | 0xFE :: 0xFF :: rest => rest
  | b => b

def parse (b : Bytes) : Option (List Statement) := do
  let cs ← characters? (Text.ofBytes (withoutMark b))
  statements? (cs.length + 1) cs

end Tortoise.Toml
