import Tortoise.Compile.Session
import Tortoise.Source.Excerpt

/-!
# Compiling a source text

`compile` turns a whole source text into a program or into an error that shows where the source
is wrong.
-/

namespace Tortoise

inductive Phase where
  | lexer
  | parser
  | compiler
deriving DecidableEq

def Phase.name : Phase → String
  | lexer => "lexer"
  | parser => "parser"
  | compiler => "compiler"

def placedMessage (phase : String) (line column : Int) (detail excerpt : Text) : Text :=
  let head : Text := phase ++ s!" error at line {line}, column {column}: " ++ detail
  if excerpt.isEmpty then head else head ++ "\n" ++ excerpt

structure SourceError where
  phase : Phase
  detail : Text
  pos : Position
  excerpt : Text
  failure : CompileFailure
deriving DecidableEq

def SourceError.message (e : SourceError) : Text :=
  placedMessage e.phase.name e.pos.line e.pos.column e.detail e.excerpt

/-- An error of `compile`. Only a failure without a position stays bare. -/
inductive CompileError where
  | placed (error : SourceError)
  | bare (failure : CompileFailure)
deriving DecidableEq

def CompileError.message : CompileError → Text
  | placed error => error.message
  | bare failure => failure.message

def CompileError.failure : CompileError → CompileFailure
  | placed error => error.failure
  | bare failure => failure

def CompileFailure.parseError? : CompileFailure → Option Expr.ParseError
  | statement ⟨.unparseable e, _⟩ => some e
  | _ => none

def CompileFailure.place (source : Text) (failure : CompileFailure) : CompileError :=
  match failure with
  | scan (.lexical e) =>
    .placed ⟨.lexer, e.cause.message, e.pos,
      Excerpt.render source e.pos.line e.pos.column, failure⟩
  | statement e =>
    let phase := if failure.parseError?.isSome then .parser else .compiler
    .placed ⟨phase, e.cause.message, e.pos,
      Excerpt.render source e.pos.line e.pos.column, failure⟩
  | _ => .bare failure

def compile (bound : Nat) (source : Text) : Except CompileError Program :=
  match compileFeed bound (Feed.ofText source none) with
  | .ok p => .ok p
  | .error failure => .error (failure.place source)

end Tortoise
