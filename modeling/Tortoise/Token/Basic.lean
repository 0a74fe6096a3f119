import Tortoise.Source.Feed
import Tortoise.Text.Quoted

/-!
# Tokens

A program is a sequence of tokens. An expression token is a run that starts with an uppercase
letter or a digit, or a balanced run in parentheses; every other run is a keyword token, whether
or not the language knows the keyword.
-/

namespace Tortoise

inductive Keyword where
  | set
  | color
  | thickness
  | towards
  | start
  | stop
  | stroke
  | move
  | forward
  | backward
  | turn
  | left
  | right
  | ifThen
  | otherwise
  | whileLoop
  | untilLoop
  | repeatLoop
  | times
  | endBlock
  | increment
  | decrement
  | assign
deriving DecidableEq

def Keyword.spelling : Keyword → Text
  | set => "set"
  | color => "color"
  | thickness => "thickness"
  | towards => "to"
  | start => "start"
  | stop => "stop"
  | stroke => "stroke"
  | move => "move"
  | forward => "forward"
  | backward => "backward"
  | turn => "turn"
  | left => "left"
  | right => "right"
  | ifThen => "if"
  | otherwise => "else"
  | whileLoop => "while"
  | untilLoop => "until"
  | repeatLoop => "repeat"
  | times => "times"
  | endBlock => "end"
  | increment => "increment"
  | decrement => "decrement"
  | assign => "="

inductive TokenKind where
  | eof
  | expression
  | keyword
deriving DecidableEq

structure Token where
  kind : TokenKind
  literal : Text
  pos : Position
deriving DecidableEq

namespace Token

def is (t : Token) (k : Keyword) : Bool := t.kind == .keyword && t.literal == k.spelling

def describe (t : Token) : String :=
  match t.kind with
  | .eof => "end of input"
  | _ => Text.quote t.literal

end Token

end Tortoise
