import Tortoise.Text.Lowercase

/-!
# Paths

A path is a sequence of names with slashes between them.
-/

namespace Tortoise.Path

def elements (path : String) : List String := (path.toList.splitOn '/').map String.ofList

/-- The last name of a path; `.` for the empty path and `/` for slashes alone. -/
def base (path : String) : String :=
  let name := ((path.toList.reverse.dropWhile (· == '/')).takeWhile (· != '/')).reverse
  if path.isEmpty then "." else if name.isEmpty then "/" else String.ofList name

def extension (path : String) : String :=
  let name := path.toList.reverse.takeWhile (· != '/')
  let letters := name.takeWhile (· != '.')
  if letters.length < name.length then String.ofList ('.' :: letters.reverse) else ""

/-- Adds a name to the names before it, last first: `.` changes nothing and `..` cancels the name
before it, or stays if there is none to cancel and the path is not absolute. -/
def push (absolute : Bool) (names : List String) (name : String) : List String :=
  if name == "" || name == "." then names
  else if name == ".." then
    match names with
    | [] => if absolute then [] else [name]
    | last :: before => if last == ".." then name :: names else before
  else name :: names

def clean (path : String) : String :=
  let absolute := path.startsWith "/"
  let names := ((elements path).foldl (push absolute) []).reverse
  let joined := "/".intercalate names
  if absolute then "/" ++ joined else if joined.isEmpty then "." else joined

def join (directory name : String) : String :=
  if directory.isEmpty then clean name else clean (directory ++ "/" ++ name)

def isCompiled (path : String) : Bool := Text.equalsFolded (extension path) ".robc"

end Tortoise.Path
