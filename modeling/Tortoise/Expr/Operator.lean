import Tortoise.Text.Rune

/-!
# Operators

The infix and prefix operators of expressions. A tree read from outside may hold an operator
that the language does not know; it is kept by its spelling, so an operator and its spelling
determine each other. Ranks order the infix operators by how tightly they bind.
-/

namespace Tortoise

def infixSpellings : List Text := ["+", "-", "*", "/", "=", ">", "<", "and", "or"]

inductive Infix where
  | add
  | sub
  | mul
  | div
  | equal
  | greater
  | less
  | and
  | or
  | unknown (spelling : Text) (foreign : spelling ∉ infixSpellings)
deriving DecidableEq

namespace Infix

def spelling : Infix → Text
  | add => "+"
  | sub => "-"
  | mul => "*"
  | div => "/"
  | equal => "="
  | greater => ">"
  | less => "<"
  | and => "and"
  | or => "or"
  | unknown s _ => s

def ofSpelling (s : Text) : Infix :=
  if foreign : s ∉ infixSpellings then unknown s foreign
  else if s = add.spelling then add
  else if s = sub.spelling then sub
  else if s = mul.spelling then mul
  else if s = div.spelling then div
  else if s = equal.spelling then equal
  else if s = greater.spelling then greater
  else if s = less.spelling then less
  else if s = and.spelling then and
  else or

def isKnown : Infix → Bool
  | unknown _ _ => false
  | _ => true

/-- A lower rank binds looser; an unknown operator has rank 0. -/
def rank : Infix → Nat
  | and | or => 1
  | equal | greater | less => 2
  | add | sub => 3
  | mul | div => 4
  | unknown _ _ => 0

theorem spelling_ofSpelling (s : Text) : (ofSpelling s).spelling = s := by
  unfold ofSpelling
  repeat' split
  all_goals simp_all [spelling, infixSpellings]

theorem ofSpelling_spelling (o : Infix) : ofSpelling o.spelling = o := by
  cases o with
  | unknown s foreign => simp [ofSpelling, spelling, foreign]
  | _ => rfl

end Infix

def prefixSpellings : List Text := ["-", "!"]

inductive Prefix where
  | negate
  | complement
  | unknown (spelling : Text) (foreign : spelling ∉ prefixSpellings)
deriving DecidableEq

namespace Prefix

def rank : Nat := 5

def spelling : Prefix → Text
  | negate => "-"
  | complement => "!"
  | unknown s _ => s

def ofSpelling (s : Text) : Prefix :=
  if foreign : s ∉ prefixSpellings then unknown s foreign
  else if s = negate.spelling then negate
  else complement

def isKnown : Prefix → Bool
  | unknown _ _ => false
  | _ => true

theorem spelling_ofSpelling (s : Text) : (ofSpelling s).spelling = s := by
  unfold ofSpelling
  repeat' split
  all_goals simp_all [spelling, prefixSpellings]

theorem ofSpelling_spelling (o : Prefix) : ofSpelling o.spelling = o := by
  cases o with
  | unknown s foreign => simp [ofSpelling, spelling, foreign]
  | _ => rfl

end Prefix

end Tortoise
