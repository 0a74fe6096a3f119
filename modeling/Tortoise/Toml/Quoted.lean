import Tortoise.Text.Number
import Tortoise.Toml.Basic

/-!
# Quoted strings of TOML

Basic strings stand between `"` and know escapes, literal strings stand between `'` and know
none. Three quotes open and close a string over several lines. Every reader starts behind the
opening quote and gives the content with what follows the closing one.
-/

namespace Tortoise.Toml

def isBlank (c : Char) : Bool := c == ' ' || c == '\t'

def isNewline (c : Char) : Bool := c == '\n' || c == '\r'

def named? (c : Char) : Option Char :=
  match c with
  | 'b' => some '\x08'
  | 't' => some '\t'
  | 'n' => some '\n'
  | 'f' => some '\x0c'
  | 'r' => some '\r'
  | 'e' => some '\x1b'
  | '"' => some '"'
  | '\\' => some '\\'
  | _ => none

def hexNumber? (width : Nat) (cs : List Char) : Option Nat := do
  let digits ← (cs.take width).mapM Text.digitOf?
  if digits.length = width ∧ digits.all (· < 16) then
    some (digits.foldl (fun n d => 16 * n + d) 0)
  else none

def coded? (width : Nat) (cs : List Char) : Option Char := do
  let n ← hexNumber? width cs
  if n.isValidChar then some (Char.ofNat n) else none

/-- The character of the escape whose backslash is in front of `cs`, with the number of
characters the escape takes. -/
def escape? : List Char → Option (Char × Nat)
  | [] => none
  | c :: rest =>
    if c == 'x' then (coded? 2 rest).map (·, 3)
    else if c == 'u' then (coded? 4 rest).map (·, 5)
    else if c == 'U' then (coded? 8 rest).map (·, 9)
    else (named? c).map (·, 1)

def andThen (c : Char) (read : Option (List Char × List Char)) : Option (List Char × List Char) :=
  read.map fun (content, rest) => (c :: content, rest)

def basicAfter : (skip : Nat) → List Char → Option (List Char × List Char)
  | _, [] => none
  | skip + 1, _ :: rest => basicAfter skip rest
  | 0, c :: rest =>
    if c == '"' then some ([], rest)
    else if isNewline c then none
    else if c == '\\' then
      match escape? rest with
      | some (d, used) => andThen d (basicAfter used rest)
      | none => none
    else andThen c (basicAfter 0 rest)

def basic (cs : List Char) : Option (List Char × List Char) := basicAfter 0 cs

def literal : List Char → Option (List Char × List Char)
  | [] => none
  | c :: rest =>
    if c == '\'' then some ([], rest)
    else if isNewline c then none
    else andThen c (literal rest)

/-- Whether the content read so far, given from its end, ends in two quotes. Then no further
quote may belong to it. A backslash in front of the two lifts the limit once, as the first of
them then belongs to an escape. -/
def isFull (quote : Char) : List Char → Bool
  | a :: b :: rest => a == quote && b == quote && !(quote == '"' && rest.head? == some '\\')
  | _ => false

/-- The raw content of a string closed by three quotes. With escapes, the character behind a
backslash never closes the string. -/
def multiline (quote : Char) : (skip : Nat) → (seen : List Char) → List Char →
    Option (List Char × List Char)
  | _, _, [] => none
  | skip + 1, seen, c :: rest => multiline quote skip (c :: seen) rest
  | 0, seen, c :: rest =>
    if c == quote then
      match rest with
      | a :: b :: after =>
        if a == quote && b == quote then
          if after.head? == some quote then
            if isFull quote seen then none else multiline quote 0 (c :: seen) rest
          else some (seen.reverse, after)
        else multiline quote 0 (c :: seen) rest
      | _ => none
    else if c == '\\' && quote == '"' then multiline quote 1 (c :: seen) rest
    else multiline quote 0 (c :: seen) rest

def withoutFirstNewline : List Char → List Char
  | '\n' :: rest => rest
  | '\r' :: '\n' :: rest => rest
  | cs => cs

def lineEnd? (cs : List Char) : Option Nat :=
  let space := cs.takeWhile fun c => isBlank c || isNewline c
  if space.contains '\n' then some space.length else none

/-- Replaces escapes; a backslash at the end of a line goes away with all blank space up to the
next text. -/
def unescapeAfter : (skip : Nat) → List Char → Option (List Char)
  | _, [] => some []
  | skip + 1, _ :: rest => unescapeAfter skip rest
  | 0, c :: rest =>
    if c == '\\' then
      match lineEnd? rest with
      | some n => unescapeAfter n rest
      | none =>
        match escape? rest with
        | some (d, used) => (unescapeAfter used rest).map (d :: ·)
        | none => none
    else (unescapeAfter 0 rest).map (c :: ·)

def multilineBasic (cs : List Char) : Option (List Char × List Char) := do
  let (raw, rest) ← multiline '"' 0 [] cs
  let content ← unescapeAfter 0 (withoutFirstNewline raw)
  return (content, rest)

def multilineLiteral (cs : List Char) : Option (List Char × List Char) := do
  let (raw, rest) ← multiline '\'' 0 [] cs
  return (withoutFirstNewline raw, rest)

def string? : List Char → Option (List Char × List Char)
  | '"' :: '"' :: '"' :: rest => multilineBasic rest
  | '"' :: rest => basic rest
  | '\'' :: '\'' :: '\'' :: rest => multilineLiteral rest
  | '\'' :: rest => literal rest
  | _ => none

end Tortoise.Toml
