import Tortoise.Expr.Lexeme
import Tortoise.Program.Block
import Tortoise.Token.Scan

/-!
# Errors of compilation

A statement error names the token at which no program can continue the text read so far. The
other failures are those of the scanner, and an invalid program, which never comes up.
-/

namespace Tortoise

inductive StatementCause where
  /-- The text ends in the middle of a statement. -/
  | unexpectedEnd (statement : String)
  | neverClosed (keyword : Text)
  | expectedStatement (found : Token)
  | unknownStatement (found : Token)
  | expectedAssign (name : Text) (found : Token)
  | expectedColorOrThickness (found : Token)
  | expectedKeyword (keyword : Keyword) (statement : String) (found : Token)
  | unknownColor (found : Token)
  | expectedStroke (statement : String) (found : Token)
  | expectedTimes (found : Token)
  | expectedVariable (statement : String) (found : Token)
  | elseOutside
  | duplicateElse
  | endOutside
  | block (error : BlockError)
  | expectedExpression (found : Token)
  | unparseable (error : Expr.ParseError)
deriving DecidableEq

namespace StatementCause

def message : StatementCause → Text
  | unexpectedEnd statement =>
    "unexpected end of input in " ++ Text.quote statement ++ " statement"
  | neverClosed keyword => Text.quote keyword ++ " block is never closed with \"end\""
  | expectedStatement found => "expected a statement, got expression " ++ found.describe
  | unknownStatement found => "unknown statement " ++ found.describe
  | expectedAssign name found => "expected \"=\" after " ++ name ++ ", got " ++ found.describe
  | expectedColorOrThickness found =>
    "expected \"color\" or \"thickness\" after \"set\", got " ++ found.describe
  | expectedKeyword keyword statement found =>
    "expected " ++ Text.quote keyword.spelling ++ " in " ++ Text.quote statement
      ++ " statement, got " ++ found.describe
  | unknownColor found => "unknown color " ++ found.describe
  | expectedStroke statement found =>
    "expected \"stroke\" after " ++ Text.quote statement ++ ", got " ++ found.describe
  | expectedTimes found => "expected \"times\" after repeat count, got " ++ found.describe
  | expectedVariable statement found =>
    Text.quote statement ++ " needs a variable, got " ++ found.describe
  | elseOutside => "\"else\" outside of an if block"
  | duplicateElse => "if block already has an \"else\""
  | endOutside => "\"end\" without an open block"
  | block error => error.message
  | expectedExpression found => "expected an expression, got " ++ found.describe
  | unparseable error => error.message

end StatementCause

structure StatementError where
  cause : StatementCause
  pos : Position
deriving DecidableEq

/-- A detail with its place, which a line number below 1 leaves out. -/
def locatedDetail (detail : Text) (line column : Int) : Text :=
  if 0 < line then s!"compiler error at line {line}, column {column}: " ++ detail
  else "compiler error: " ++ detail

def StatementError.message (e : StatementError) : Text :=
  locatedDetail e.cause.message e.pos.line e.pos.column

inductive CompileFailure where
  | scan (error : ScanError)
  | statement (error : StatementError)
  | invalid (error : InvalidProgram)
deriving DecidableEq

def CompileFailure.message : CompileFailure → Text
  | scan error => error.message
  | statement error => error.message
  | invalid error => error.message

end Tortoise
