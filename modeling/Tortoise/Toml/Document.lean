import Tortoise.Toml.Basic

/-!
# Documents of TOML

The statements of a text define a tree of tables. A key may be defined once; a table that only
came about as the parent of others may be defined later. A document holds its tables and all keys
in the order in which they were written.

Tables are numbered, and a node refers to a table by its number. The value of an inline table is a
table of its own, built up beside the one that stands under its key. It takes the place of the
latter where the key is noted as an array, and from then on both are the same table.
-/

namespace Tortoise.Toml

inductive Node where
  | scalar (s : Scalar)
  | array
  | table (number : Nat)
  /-- The tables of an array, of which only the latest can be added to. -/
  | elements (latest : Nat)
deriving DecidableEq

def Node.table? : Node → Option Nat
  | table number => some number
  | elements latest => some latest
  | _ => none

abbrev Table := List (String × Node)

def Table.set (name : String) (node : Node) : Table → Table
  | [] => [(name, node)]
  | (other, old) :: rest =>
    if name == other then (name, node) :: rest else (other, old) :: set name node rest

structure Document where
  /-- The tables by number. -/
  tables : Array Table := #[[]]
  /-- All keys as written, in order. -/
  keys : List Key := []
  /-- Tables that came about as parents of others. -/
  implicit : List Key := []
  /-- Keys whose values are arrays written out in place. -/
  arrays : List Key := []

namespace Document

def table (d : Document) (number : Nat) : Table := d.tables[number]?.getD []

def rootNumber : Nat := 0

def root (d : Document) : Table := d.table rootNumber

def addTable (d : Document) : Document × Nat :=
  ({ d with tables := d.tables.push [] }, d.tables.size)

def put (d : Document) (number : Nat) (name : String) (node : Node) : Document :=
  { d with tables := d.tables.modify number (Table.set name node) }

def find? (d : Document) (number : Nat) : Key → Option Nat
  | [] => some number
  | name :: rest => do
    let node ← (d.table number).lookup name
    d.find? (← node.table?) rest

/-- Sets an entry below a table, in tables that are added where parents are missing. -/
def putBelow (d : Document) (number : Nat) (name : String) (node : Node) : Key → Option Document
  | [] => some (d.put number name node)
  | parent :: rest =>
    match (d.table number).lookup parent with
    | none =>
      let (d, inner) := d.addTable
      (d.put number parent (.table inner)).putBelow inner name node rest
    | some (.table inner) => d.putBelow inner name node rest
    | some _ => none

def markImplicit (d : Document) (key : Key) : Document :=
  { d with implicit := key :: d.implicit }

def unmarkImplicit (d : Document) (key : Key) : Document :=
  { d with implicit := d.implicit.filter (· != key) }

/-- The key of which a type is noted: an entry without a name stands for its table. -/
def typedKey (context : Key) (name : String) : Key :=
  let key := if name.isEmpty then context else context ++ [name]
  if key.isEmpty then [""] else key

def noteType (d : Document) (context : Key) (name : String) (isArray : Bool) : Document :=
  let key := typedKey context name
  let others := d.arrays.filter (· != key)
  { d with arrays := if isArray then key :: others else others }

/-- Defines a name in the table of a context. A name that is taken may only be defined if it is
marked as implicit; what is there stays, unless the name is noted as an array. -/
def define (d : Document) (context : Key) (name : String) (node : Node) : Option Document := do
  let key := context ++ [name]
  let number ← d.find? rootNumber context
  match (d.table number).lookup name with
  | none => some (d.put number name node)
  | some _ =>
    if !d.implicit.contains key then none
    else if d.arrays.contains key then some ((d.put number name node).unmarkImplicit key)
    else some (d.unmarkImplicit key)

/-- Makes sure that a chain of parents exists below the table of a context; gives the number of
the last one. -/
def openParents (d : Document) (context : Key) (number : Nat) : Key → Option (Document × Nat)
  | [] => some (d, number)
  | name :: rest => do
    let key := context ++ [name]
    match (d.table number).lookup name with
    | none =>
      let (d, inner) := d.addTable
      ((d.put number name (.table inner)).markImplicit key).openParents key inner rest
    | some node => d.openParents key (← node.table?) rest

def openTable (d : Document) (element : Bool) (key : Key) : Option Document := do
  let name := key.getLast?.getD ""
  let (d, parent) ← d.openParents [] rootNumber key.dropLast
  let (d, number) := d.addTable
  if element then
    match (d.table parent).lookup name with
    | none | some (.elements _) => some (d.put parent name (.elements number))
    | some _ => none
  else d.define key.dropLast name (.table number)

def enterParents (d : Document) (context : Key) : Key → Option (Document × Key)
  | [] => some (d, context)
  | name :: rest => do
    let context := context ++ [name]
    enterParents (← (d.markImplicit context).openTable false context) context rest

mutual

def takeValue (d : Document) (context : Key) (name : String) (inArray : Bool) :
    Value → Option (Document × Node)
  | .scalar s => some (d, .scalar s)
  | .array items => do
    return (← takeItems (d.noteType context name true) context name items, .array)
  | .inlineTable entries => do
    let context := context ++ [name]
    let d ← (d.markImplicit context).openTable inArray context
    let (d, own) := d.addTable
    return (← takeEntries d (some own) context entries, .table own)

def takeItems (d : Document) (context : Key) (name : String) : List Value → Option Document
  | [] => some d
  | item :: rest => do
    let (d, _) ← takeValue d context name true item
    takeItems d context name rest

/-- Takes up entries below a context, those of an inline table also in the table of its value. -/
def takeEntries (d : Document) (own : Option Nat) (context : Key) :
    List (Key × Value) → Option Document
  | [] => some d
  | (key, value) :: rest => do
    let name := key.getLast?.getD ""
    let (d, inner) ← d.enterParents context key.dropLast
    let d := { d with keys := d.keys ++ [inner ++ [name]] }
    let (d, node) ← takeValue d inner name false value
    let d ← d.define inner name node
    let d := d.noteType inner name (node == .array)
    let d ← match own with
      | none => some d
      | some number => d.putBelow number name node key.dropLast
    takeEntries d own context rest

end

def take (d : Document) (context : Key) : Statement → Option (Document × Key)
  | .table key => do
    let d ← d.openTable false key
    return ({ (d.noteType key "" false) with keys := d.keys ++ [key] }, key)
  | .element key => do
    let d ← d.openTable true key
    return ({ (d.noteType key "" false) with keys := d.keys ++ [key] }, key)
  | .entry key value => do return (← takeEntries d none context [(key, value)], context)

def ofStatements? (statements : List Statement) : Option Document := do
  let (d, _) ← statements.foldlM (fun (d, context) s => take d context s) (({} : Document), [])
  return d

end Document

end Tortoise.Toml
