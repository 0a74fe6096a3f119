import Tortoise.Application.Journey
import Tortoise.Application.Run
import Tortoise.Application.World
import Tortoise.Cbor.Field
import Tortoise.Cbor.Item
import Tortoise.Cbor.Read
import Tortoise.Charset.Decode
import Tortoise.Charset.Jis
import Tortoise.Compile.Basic
import Tortoise.Compile.Error
import Tortoise.Compile.Session
import Tortoise.Disk.Basic
import Tortoise.Disk.Path
import Tortoise.Duration
import Tortoise.Expr.Basic
import Tortoise.Expr.Eval
import Tortoise.Expr.Lexeme
import Tortoise.Expr.Operator
import Tortoise.Expr.Parse
import Tortoise.Log.Line
import Tortoise.Log.Stamp
import Tortoise.Log.Value
import Tortoise.Machine.Basic
import Tortoise.Machine.Env
import Tortoise.Machine.Error
import Tortoise.Machine.Host
import Tortoise.Main
import Tortoise.Program.Basic
import Tortoise.Program.Binary
import Tortoise.Program.Block
import Tortoise.Program.Buffer
import Tortoise.Program.Instruction
import Tortoise.Program.Store
import Tortoise.Proofs.Compile.Acceptance
import Tortoise.Proofs.Compile.Emission
import Tortoise.Proofs.Compile.Layout
import Tortoise.Proofs.Compile.Program
import Tortoise.Proofs.Compile.Transitions
import Tortoise.Proofs.Compile.Tree
import Tortoise.Proofs.Expr.Cutting
import Tortoise.Proofs.Expr.Grammar
import Tortoise.Proofs.Expr.Pieces
import Tortoise.Proofs.Expr.Plain
import Tortoise.Proofs.Expr.Recognition
import Tortoise.Proofs.Expr.Span
import Tortoise.Proofs.Machine.Advance
import Tortoise.Proofs.Machine.Counters
import Tortoise.Proofs.Machine.Env
import Tortoise.Proofs.Machine.Faults
import Tortoise.Proofs.Machine.Meaning
import Tortoise.Proofs.Machine.Preservation
import Tortoise.Proofs.Machine.Scope
import Tortoise.Proofs.Machine.Simulation
import Tortoise.Proofs.Machine.Snapshot
import Tortoise.Proofs.Success
import Tortoise.Proofs.Text.Blank
import Tortoise.Proofs.Text.Class
import Tortoise.Settings.Basic
import Tortoise.Settings.ConfigFile
import Tortoise.Settings.Flags
import Tortoise.Settings.Help
import Tortoise.Source.Excerpt
import Tortoise.Source.Feed
import Tortoise.Text.Class
import Tortoise.Text.CodeRuns
import Tortoise.Text.Letter
import Tortoise.Text.Lowercase
import Tortoise.Text.Number
import Tortoise.Text.Printable
import Tortoise.Text.Quoted
import Tortoise.Text.Rune
import Tortoise.Token.Basic
import Tortoise.Token.Scan
import Tortoise.Toml.Basic
import Tortoise.Toml.Document
import Tortoise.Toml.Number
import Tortoise.Toml.Parse
import Tortoise.Toml.Quoted
import Tortoise.Turtle.Basic
import Tortoise.Turtle.Trig
import Tortoise.Proofs.Machine.Course
import Tortoise.Proofs.Machine.Rounds
import Tortoise.Proofs.Cbor.Canonical
import Tortoise.Proofs.Cbor.Record
import Tortoise.Proofs.Program.Nodes
import Tortoise.Proofs.Program.Codec
import Tortoise.Proofs.Cbor.Limits
import Tortoise.Proofs.Program.Accepted
import Tortoise.Proofs.Disk.Written
import Tortoise.Proofs.Compile.Extent
import Tortoise.Proofs.Program.Saved
import Tortoise.Proofs.Machine.Interruption
import Tortoise.Proofs.Settings.Roles
import Tortoise.Proofs.Source.Uncommented
import Tortoise.Proofs.Token.Splits
import Tortoise.Proofs.Token.Scan
import Tortoise.Proofs.Compile.Spacing
import Tortoise.Proofs.Compile.Viable
import Tortoise.Proofs.Compile.FirstError
import Tortoise.Proofs.Expr.Rendering
import Tortoise.Proofs.Expr.SoftFaults
import Tortoise.Proofs.Expr.Exact
import Tortoise.Proofs.Text.Lines
import Tortoise.Proofs.Source.Places
import Tortoise.Proofs.Source.Excerpt
import Tortoise.Proofs.Compile.Placed
import Tortoise.Proofs.Settings.Precedence
import Tortoise.Proofs.Program.Ownership
import Tortoise.Proofs.Compile.Patching
import Tortoise.Proofs.Machine.Bounds
import Tortoise.Proofs.Expr.OuterLogic
import Tortoise.Proofs.Compile.Fused
import Tortoise.Proofs.Expr.Gaps
import Tortoise.Proofs.Settings.TimeLimit
import Tortoise.Proofs.Token.Positions
import Tortoise.Proofs.Expr.Written
import Tortoise.Proofs.Program.Listing
import Tortoise.Proofs.Machine.Listed
import Tortoise.Proofs.Turtle.Walk
import Tortoise.Proofs.Turtle.Drawing
import Tortoise.Proofs.Turtle.Return
import Tortoise.Proofs.Machine.Diagnostics
import Tortoise.Proofs.Source.Alignment
import Tortoise.Proofs.Expr.Guards
import Tortoise.Proofs.Program.WriteOnce
import Tortoise.Proofs.Settings.Order
import Tortoise.Proofs.Source.Lookahead
import Tortoise.Proofs.Token.Stepwise
import Tortoise.Proofs.Token.Finality
import Tortoise.Proofs.Turtle.Printed
