import Tortoise.Cbor.Field
import Tortoise.Cbor.Read
import Tortoise.Program.Basic

/-!
# The binary form of programs

A program is stored as one CBOR record of a version and a list of instructions. Expressions are
records that hold records. A field at its zero value is left out, except the version, the list,
the command of an instruction and the kind of a node.

    program       1 version   2 instructions
    instruction   1 command   2 name   3 expression   4 target   5 on true   6 on false   7 action
    node          1 kind      2 value  3 name         4 operator 5 left      6 right

Writing needs a valid program. Reading accepts any encoding of the records, then checks operators,
names and validity, so that what is read can be run.
-/

namespace Tortoise

inductive Node where
  | missing
  | node (kind : UInt8) (value : Int64) (name op : Text) (left right : Node)

namespace Node

inductive Defect where
  | unnamedVariable
  | badUnary (op : Text)
  | badBinary (op : Text)
  | unknownKind (kind : UInt8)
deriving DecidableEq

def Defect.message : Defect → String
  | unnamedVariable => "variable without a name"
  | badUnary op => "bad unary node " ++ Text.quote op
  | badBinary op => "bad binary node " ++ Text.quote op
  | unknownKind kind => s!"unknown node kind {kind.toNat}"

def isMissing : Node → Bool
  | missing => true
  | node .. => false

/-- The node of an expression, or the name of the kind of a node that has no binary form. -/
def ofExpr : Expr → Except String Node
  | .absent => .ok missing
  | .null => .ok (node 0 0 [] [] missing missing)
  | .literal v => .ok (node 1 v [] [] missing missing)
  | .var name => .ok (node 2 0 name [] missing missing)
  | .unary op e => do return node 3 0 [] op.spelling (← ofExpr e) missing
  | .binary op l r => do
    let left ← ofExpr l
    let right ← ofExpr r
    return node 4 0 [] op.spelling left right
  | .foreign kind => .error kind

/-- The expression of a node. A missing node is an absent expression only where it stands for
a whole expression. -/
def toExpr : Node → Except Defect Expr
  | missing => .ok .absent
  | node kind value name op left right =>
    match kind.toNat with
    | 0 => .ok .null
    | 1 => .ok (.literal value)
    | 2 => if name.isEmpty then .error .unnamedVariable else .ok (.var name)
    | 3 =>
      if !(Prefix.ofSpelling op).isKnown || left.isMissing then .error (.badUnary op)
      else do return .unary (.ofSpelling op) (← left.toExpr)
    | 4 =>
      if !(Infix.ofSpelling op).isKnown || left.isMissing || right.isMissing then
        .error (.badBinary op)
      else do
        let l ← left.toExpr
        let r ← right.toExpr
        return .binary (.ofSpelling op) l r
    | _ => .error (.unknownKind kind)

end Node

namespace Binary

open Cbor

def version : Int64 := 1

def intField (number : Nat) (n : Int) : List (Nat × Item) :=
  if n = 0 then [] else [(number, .ofInt n)]

def textField (number : Nat) (t : Text) : List (Nat × Item) :=
  if t.isEmpty then [] else [(number, .ofText t)]

def nodeItem? : Node → Option Item
  | .missing => none
  | .node kind value name op left right =>
    let child (number : Nat) : Option Item → List (Nat × Item)
      | none => []
      | some item => [(number, item)]
    some (.ofFields ([(1, .unsigned kind.toNat)] ++ intField 2 value.toInt ++ textField 3 name
      ++ textField 4 op ++ child 5 (nodeItem? left) ++ child 6 (nodeItem? right)))

def nodeField (number : Nat) (n : Node) : List (Nat × Item) :=
  match nodeItem? n with
  | none => []
  | some item => [(number, item)]

def instructionItem (ins : Instruction) (expr : Node) : Item :=
  .ofFields ([(1, .ofText ins.command.spelling)] ++ textField 2 ins.name ++ nodeField 3 expr
    ++ intField 4 ins.target ++ intField 5 ins.onTrue ++ intField 6 ins.onFalse
    ++ intField 7 ins.action.toNat)

inductive EncodeError where
  | invalid (error : InvalidProgram)
  | foreignNode (index : Nat) (kind : String)
  /-- A place that does not fit in 64 bits. -/
  | widePlace (index : Nat)
deriving DecidableEq

def EncodeError.message : EncodeError → String
  | invalid error => "opcode: marshal: " ++ error.message
  | foreignNode index kind =>
    s!"opcode: marshal instruction {index}: unsupported expression node {kind}"
  | widePlace index => s!"opcode: marshal instruction {index}: place out of range"

def fits (n : Int) : Bool := -0x8000000000000000 ≤ n && n < 0x8000000000000000

def encodeInstruction (index : Nat) (ins : Instruction) : Except EncodeError Item :=
  match Node.ofExpr ins.expr with
  | .error kind => .error (.foreignNode index kind)
  | .ok expr =>
    if fits ins.target && fits ins.onTrue && fits ins.onFalse then
      .ok (instructionItem ins expr)
    else .error (.widePlace index)

def encode (p : Program) : Except EncodeError Bytes :=
  match p.invalid? with
  | some e => .error (.invalid e)
  | none => do
    let items ← p.toList.zipIdx.mapM fun (ins, index) => encodeInstruction index ins
    return (Item.ofFields [(1, .ofInt version.toInt), (2, .array items)]).encode

inductive FormatError where
  /-- The bytes are no CBOR item of the expected shape. -/
  | malformed
  | version (found : Int64)
  | node (index : Nat) (defect : Node.Defect)
  | invalid (error : InvalidProgram)
deriving DecidableEq

def FormatError.message : FormatError → String
  | malformed => "opcode: unmarshal: malformed program encoding: <cbor>"
  | version found =>
    "opcode: unmarshal: malformed program encoding: unsupported version " ++ Text.ofInt64 found
  | node index defect =>
    s!"opcode: unmarshal instruction {index}: malformed program encoding: " ++ defect.message
  | invalid error => "opcode: unmarshal: malformed program encoding: " ++ error.message

/-- Reads a node whose records nest at most `levels` deep. Only a bare null is a missing node;
a tagged one is a node without fields. -/
def nodeOf : (levels : Nat) → Item → Option Node
  | 0, _ => none
  | levels + 1, item =>
    if item.isNull then some .missing
    else do
      let r ← item.record?
      let kind ← r.field 1 0 Item.uint8?
      let value ← r.field 2 0 Item.int64?
      let name ← r.field 3 [] Item.text?
      let op ← r.field 4 [] Item.text?
      let left ← r.field 5 .missing (nodeOf levels)
      let right ← r.field 6 .missing (nodeOf levels)
      return .node kind value name op left right

structure Stored where
  command : Text
  name : Text
  expr : Node
  target : Int64
  onTrue : Int64
  onFalse : Int64
  action : UInt8

def storedOf (item : Item) : Option Stored := do
  let r ← item.record?
  return {
    command := ← r.field 1 [] Item.text?
    name := ← r.field 2 [] Item.text?
    expr := ← r.field 3 .missing (nodeOf maxNesting)
    target := ← r.field 4 0 Item.int64?
    onTrue := ← r.field 5 0 Item.int64?
    onFalse := ← r.field 6 0 Item.int64?
    action := ← r.field 7 0 Item.uint8? }

def contentOf (item : Item) : Option (Int64 × List Stored) := do
  let r ← item.record?
  let found ← r.field 1 0 Item.int64?
  let items ← r.field 2 [] Item.list?
  return (found, ← items.mapM storedOf)

def decodeInstruction (index : Nat) (s : Stored) : Except FormatError Instruction :=
  match s.expr.toExpr with
  | .error defect => .error (.node index defect)
  | .ok expr =>
    .ok { command := .ofSpelling s.command, name := s.name, expr, target := s.target.toInt,
          onTrue := s.onTrue.toInt, onFalse := s.onFalse.toInt, action := s.action }

def decode (b : Bytes) : Except FormatError Program :=
  match (Cbor.decode b).bind contentOf with
  | none => .error .malformed
  | some (found, stored) =>
    if found ≠ version then .error (.version found)
    else do
      let code ← stored.zipIdx.mapM fun (s, index) => decodeInstruction index s
      let p : Program := code.toArray
      match p.invalid? with
      | some e => throw (.invalid e)
      | none => return p

end Binary

end Tortoise
