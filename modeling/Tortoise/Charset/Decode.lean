import Tortoise.Charset.Jis
import Tortoise.Text.Class
import Tortoise.Text.Lowercase

/-!
# Character sets

Source files come in one of seven character sets. Decoding never fails: whatever bytes do not
form a character turn into U+FFFD. Each decoder looks at one byte and the bytes after it and says
which characters they give and how many of the bytes after it they use.
-/

namespace Tortoise

inductive Charset where
  | eucJp
  | iso2022Jp
  | latin1
  | shiftJis
  | utf16
  | utf8
  | windows1252
deriving DecidableEq

namespace Charset

def name : Charset → String
  | eucJp => "euc-jp"
  | iso2022Jp => "iso-2022-jp"
  | latin1 => "latin1"
  | shiftJis => "shift_jis"
  | utf16 => "utf-16"
  | utf8 => "utf-8"
  | windows1252 => "windows-1252"

def all : List Charset := [eucJp, iso2022Jp, latin1, shiftJis, utf16, utf8, windows1252]

def names : List String := all.map name

def aliases : List (String × Charset) :=
  [("", utf8), ("utf8", utf8), ("utf16", utf16), ("sjis", shiftJis), ("shift-jis", shiftJis),
   ("cp932", shiftJis), ("eucjp", eucJp), ("iso-8859-1", latin1), ("cp1252", windows1252)]

def ofName? (name : String) : Option Charset :=
  let key := Text.lowercase (Text.toString (Text.trim name))
  match aliases.lookup key with
  | some c => some c
  | none => all.find? fun c => c.name == key

def unsupported (name : String) : String :=
  "unsupported encoding: " ++ name ++ " (supported: " ++ ", ".intercalate names ++ ")"

def replacement : Char := '\uFFFD'

/-- What a byte gives: characters, the number of bytes after it that they use, and the mode in
which the rest is read. -/
structure Step (μ : Type) where
  out : List Char
  used : Nat
  mode : μ

def decodeFrom {μ : Type} (step : μ → UInt8 → Bytes → Step μ) : (skip : Nat) → μ → Bytes →
    List Char
  | _, _, [] => []
  | skip + 1, mode, _ :: rest => decodeFrom step skip mode rest
  | 0, mode, b :: rest =>
    let s := step mode b rest
    s.out ++ decodeFrom step s.used s.mode rest

def plain (f : UInt8 → Bytes → Char × Nat) (_ : Unit) (b : UInt8) (rest : Bytes) : Step Unit :=
  let (c, used) := f b rest
  ⟨[c], used, ()⟩

def halfKatakana (n : Nat) : Char := Char.ofNat (0xFF61 + n)

def mayFollow (a b : UInt8) : Bool :=
  if a == 0xE0 then 0xA0 ≤ b && b < 0xC0
  else if a == 0xED then 0x80 ≤ b && b < 0xA0
  else if a == 0xF0 then 0x90 ≤ b && b < 0xC0
  else if a == 0xF4 then 0x80 ≤ b && b < 0x90
  else if 0xC2 ≤ a && a < 0xF4 then Text.isTail b
  else false

/-- How many bytes after `a` start to be a character with it, where no whole character does. -/
def subpart (a : UInt8) (rest : Bytes) : Nat :=
  match rest with
  | b :: more =>
    if !mayFollow a b then 0
    else match more with
      | c :: _ => if 0xF0 ≤ a && Text.isTail c then 2 else 1
      | [] => 1
  | [] => 0

/-- Ill-formed bytes give one replacement for each longest part that could start a character. -/
def utf8Step (a : UInt8) (rest : Bytes) : Char × Nat :=
  match Text.character? a rest with
  | some found => found
  | none => (replacement, subpart a rest)

def withoutMark : Bytes → Bytes
  | 0xEF :: 0xBB :: 0xBF :: rest => rest
  | b => b

def unit (bigEndian : Bool) (a b : UInt8) : Nat :=
  if bigEndian then 256 * a.toNat + b.toNat else 256 * b.toNat + a.toNat

def isSurrogate (u : Nat) : Bool := 0xD800 ≤ u && u < 0xE000

def isLowSurrogate (u : Nat) : Bool := 0xDC00 ≤ u && u < 0xE000

def ofPair (u v : Nat) : Char :=
  if isLowSurrogate u then replacement
  else Char.ofNat (0x10000 + (u - 0xD800) * 0x400 + (v - 0xDC00))

def utf16Step (bigEndian : Bool) (a : UInt8) (rest : Bytes) : Char × Nat :=
  match rest with
  | [] => (replacement, 0)
  | b :: more =>
    let u := unit bigEndian a b
    if !isSurrogate u then (Char.ofNat u, 1)
    else match more with
      | c :: d :: _ =>
        let v := unit bigEndian c d
        if isLowSurrogate v then (ofPair u v, 3) else (replacement, 1)
      | _ => (replacement, 1)

/-- The mark that may start a UTF-16 text tells its byte order; without it the low byte of a
unit comes first. -/
def decodeUtf16 : Bytes → List Char
  | 0xFE :: 0xFF :: rest => decodeFrom (plain (utf16Step true)) 0 () rest
  | 0xFF :: 0xFE :: rest => decodeFrom (plain (utf16Step false)) 0 () rest
  | b => decodeFrom (plain (utf16Step false)) 0 () b

def latin1Step (a : UInt8) (_ : Bytes) : Char × Nat := (Char.ofNat a.toNat, 0)

def windowsRow : List Char :=
  "€\uFFFD‚ƒ„…†‡ˆ‰Š‹Œ\uFFFDŽ\uFFFD\uFFFD‘’“”•–—˜™š›œ\uFFFDžŸ".toList

def windowsStep (a : UInt8) (_ : Bytes) : Char × Nat :=
  if 0x80 ≤ a && a < 0xA0 then (windowsRow.getD (a.toNat - 0x80) replacement, 0)
  else (Char.ofNat a.toNat, 0)

def shiftJisStep (a : UInt8) (rest : Bytes) : Char × Nat :=
  if a ≤ 0x80 then (Char.ofNat a.toNat, 0)
  else if 0xA1 ≤ a && a < 0xE0 then (halfKatakana (a.toNat - 0xA1), 0)
  else if a == 0xA0 || 0xFD ≤ a then (replacement, 0)
  else match rest with
    | [] => (replacement, 0)
    | b :: _ =>
      if b < 0x40 || b == 0x7F then (replacement, 0)
      else if 0xFD ≤ b then (replacement, 1)
      else
        let lead := a.toNat - if a < 0xA0 then 0x81 else 0xC1
        let trail := b.toNat - if b < 0x7F then 0x40 else 0x41
        (jisChar (188 * lead + trail), 1)

def isEuc (b : UInt8) : Bool := 0xA1 ≤ b && b < 0xFF

def eucKatakana : Bytes → Char × Nat
  | [] => (replacement, 0)
  | b :: _ =>
    if b < 0xA1 || b == 0xFF then (replacement, 0)
    else if b < 0xE0 then (halfKatakana (b.toNat - 0xA1), 1)
    else (replacement, 1)

/-- A character of the supplementary set after its shift byte. The set has no characters here. -/
def eucSupplementary : Bytes → Char × Nat
  | [] => (replacement, 0)
  | [b] => (replacement, if 0xA1 ≤ b && b < 0xFE then 1 else 0)
  | b :: c :: _ => (replacement, if !isEuc b then 0 else if !isEuc c then 1 else 2)

def eucStep (a : UInt8) (rest : Bytes) : Char × Nat :=
  if a < 0x80 then (Char.ofNat a.toNat, 0)
  else if a == 0x8E then eucKatakana rest
  else if a == 0x8F then eucSupplementary rest
  else if !isEuc a then (replacement, 0)
  else match rest with
    | [] => (replacement, 0)
    | b :: _ =>
      if isEuc b then (jisChar (94 * (a.toNat - 0xA1) + (b.toNat - 0xA1)), 1)
      else (replacement, 0)

inductive JisMode where
  | ascii
  | katakana
  | kanji
  | supplementary

def escape? : Bytes → Option (JisMode × Nat)
  | 0x24 :: 0x40 :: _ => some (.kanji, 2)
  | 0x24 :: 0x42 :: _ => some (.kanji, 2)
  | 0x24 :: 0x28 :: 0x44 :: _ => some (.supplementary, 3)
  | 0x28 :: 0x42 :: _ => some (.ascii, 2)
  | 0x28 :: 0x4A :: _ => some (.ascii, 2)
  | 0x28 :: 0x49 :: _ => some (.katakana, 2)
  | _ => none

/-- A character of two bytes; the second byte counts from 0x21 on modulo 256. -/
def jisPair (kanji : Bool) (a b : UInt8) : Char :=
  if !kanji || a < 0x21 then replacement
  else jisChar (94 * (a.toNat - 0x21) + (b - 0x21).toNat)

def iso2022Step (mode : JisMode) (a : UInt8) (rest : Bytes) : Step JisMode :=
  let pair (kanji : Bool) : Step JisMode :=
    if a == 0x0A then ⟨['\n'], 0, .ascii⟩
    else match rest with
      | [] => ⟨[replacement], 0, mode⟩
      | b :: _ => ⟨[jisPair kanji a b], 1, mode⟩
  if 0x80 ≤ a then ⟨[replacement], 0, mode⟩
  else if a == 0x1B then
    match escape? rest with
    | some (mode, used) => ⟨[], used, mode⟩
    | none => ⟨[replacement], 0, mode⟩
  else match mode with
    | .ascii => ⟨[Char.ofNat a.toNat], 0, mode⟩
    | .katakana =>
      if 0x21 ≤ a && a < 0x60 then ⟨[halfKatakana (a.toNat - 0x21)], 0, mode⟩
      else ⟨[replacement], 0, mode⟩
    | .kanji => pair true
    | .supplementary => pair false

def decode (c : Charset) (b : Bytes) : List Char :=
  match c with
  | eucJp => decodeFrom (plain eucStep) 0 () b
  | iso2022Jp => decodeFrom iso2022Step 0 .ascii b
  | latin1 => decodeFrom (plain latin1Step) 0 () b
  | shiftJis => decodeFrom (plain shiftJisStep) 0 () b
  | utf16 => decodeUtf16 b
  | utf8 => decodeFrom (plain utf8Step) 0 () (withoutMark b)
  | windows1252 => decodeFrom (plain windowsStep) 0 () b

def decodeNamed (name : String) (b : Bytes) : Except String Text :=
  match ofName? name with
  | some c => .ok ((c.decode b).map .char)
  | none => .error (unsupported name)

end Charset

end Tortoise
