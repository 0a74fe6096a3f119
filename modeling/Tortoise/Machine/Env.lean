import Tortoise.Expr.Eval

/-!
# Variables

The environment of a machine holds integer variables, one value to a name. Names that start with
`#` are the compiler's own and are hidden from users; no identifier starts with it.
-/

namespace Tortoise

structure Env where
  entries : List (Text × Int64) := []
deriving DecidableEq

namespace Env

def get? (env : Env) (name : Text) : Option Int64 := env.entries.lookup name

def setEntry (name : Text) (value : Int64) : List (Text × Int64) → List (Text × Int64)
  | [] => [(name, value)]
  | (other, old) :: rest =>
    if name = other then (name, value) :: rest else (other, old) :: setEntry name value rest

def set (env : Env) (name : Text) (value : Int64) : Env := ⟨setEntry name value env.entries⟩

def contains (env : Env) (name : Text) : Bool := (env.get? name).isSome

def erase (env : Env) (name : Text) : Env := ⟨env.entries.filter fun e => e.1 != name⟩

def size (env : Env) : Nat := env.entries.length

def isHidden (name : Text) : Bool := Text.startsWith "#" name

/-- The variables that users see. -/
def visible (env : Env) : List (Text × Int64) := env.entries.filter fun e => !isHidden e.1

end Env

end Tortoise
