import MonkeyLang.Builtin.Basic
import MonkeyLang.Builtin.Call
import MonkeyLang.Bytecode.Code
import MonkeyLang.Bytecode.CompiledProgram
import MonkeyLang.Bytecode.Opcode
import MonkeyLang.CommandLine.Arguments
import MonkeyLang.CommandLine.Commands
import MonkeyLang.CommandLine.Interactive
import MonkeyLang.CommandLine.Memory
import MonkeyLang.CommandLine.Program
import MonkeyLang.CommandLine.World
import MonkeyLang.Compiler.Assembler
import MonkeyLang.Compiler.Buffer
import MonkeyLang.Compiler.Fault
import MonkeyLang.Compiler.Fragment
import MonkeyLang.Compiler.Generate
import MonkeyLang.Compiler.State
import MonkeyLang.Diagnostic.Basic
import MonkeyLang.Diagnostic.Report
import MonkeyLang.Files.Access
import MonkeyLang.Files.Path
import MonkeyLang.Files.Tree
import MonkeyLang.Json.Basic
import MonkeyLang.Json.Reader
import MonkeyLang.Json.Writer
import MonkeyLang.Machine.Basic
import MonkeyLang.Machine.Fault
import MonkeyLang.Machine.Run
import MonkeyLang.Machine.Step
import MonkeyLang.Main
import MonkeyLang.Number.Binary64
import MonkeyLang.Number.Read
import MonkeyLang.Number.Shortest
import MonkeyLang.Number.Written
import MonkeyLang.Program.Basic
import MonkeyLang.Program.Cursor
import MonkeyLang.Program.Exchange
import MonkeyLang.Program.Parser
import MonkeyLang.Program.Parsing
import MonkeyLang.Program.Reader
import MonkeyLang.Program.Source
import MonkeyLang.Program.SyntaxFault
import MonkeyLang.Program.Writer
import MonkeyLang.Proofs.Bytecode.ConstantLines
import MonkeyLang.Proofs.Bytecode.Decoding
import MonkeyLang.Proofs.Bytecode.Dispatch
import MonkeyLang.Proofs.Bytecode.Layout
import MonkeyLang.Proofs.Bytecode.Levels
import MonkeyLang.Proofs.Bytecode.Placement
import MonkeyLang.Proofs.Bytecode.Streams
import MonkeyLang.Proofs.CommandLine.Overriding
import MonkeyLang.Proofs.Compiler.Arities
import MonkeyLang.Proofs.Compiler.Assembling
import MonkeyLang.Proofs.Compiler.Bindings
import MonkeyLang.Proofs.Compiler.Buffers
import MonkeyLang.Proofs.Compiler.Core
import MonkeyLang.Proofs.Compiler.Culprits
import MonkeyLang.Proofs.Compiler.History
import MonkeyLang.Proofs.Compiler.Journal
import MonkeyLang.Proofs.Compiler.Landing
import MonkeyLang.Proofs.Compiler.Levels
import MonkeyLang.Proofs.Compiler.Logs
import MonkeyLang.Proofs.Compiler.Loops
import MonkeyLang.Proofs.Compiler.Mentions
import MonkeyLang.Proofs.Compiler.Recording
import MonkeyLang.Proofs.Compiler.Relocation
import MonkeyLang.Proofs.Compiler.Resolution
import MonkeyLang.Proofs.Compiler.Reuse
import MonkeyLang.Proofs.Compiler.Routines
import MonkeyLang.Proofs.Compiler.Runs
import MonkeyLang.Proofs.Compiler.Scoping
import MonkeyLang.Proofs.Compiler.Slots
import MonkeyLang.Proofs.Compiler.Stepwise
import MonkeyLang.Proofs.Compiler.Tracking
import MonkeyLang.Proofs.Compiler.WellFormed
import MonkeyLang.Proofs.Diagnostic.Carets
import MonkeyLang.Proofs.Diagnostic.Names
import MonkeyLang.Proofs.Evaluator.Basic
import MonkeyLang.Proofs.Evaluator.Program
import MonkeyLang.Proofs.Evaluator.Room
import MonkeyLang.Proofs.Evaluator.Walk
import MonkeyLang.Proofs.Json.Nulls
import MonkeyLang.Proofs.Json.Numbers
import MonkeyLang.Proofs.Json.Rereading
import MonkeyLang.Proofs.Json.Standard
import MonkeyLang.Proofs.Machine.Checked
import MonkeyLang.Proofs.Machine.Confined
import MonkeyLang.Proofs.Machine.Constants
import MonkeyLang.Proofs.Machine.Effects
import MonkeyLang.Proofs.Machine.Globals
import MonkeyLang.Proofs.Machine.Halting
import MonkeyLang.Proofs.Machine.Moves
import MonkeyLang.Proofs.Machine.Nesting
import MonkeyLang.Proofs.Machine.Pools
import MonkeyLang.Proofs.Machine.Preservation
import MonkeyLang.Proofs.Machine.Reaching
import MonkeyLang.Proofs.Machine.Stack
import MonkeyLang.Proofs.Machine.Tracked
import MonkeyLang.Proofs.Machine.Widening
import MonkeyLang.Proofs.Number.Digits
import MonkeyLang.Proofs.Program.Abreast
import MonkeyLang.Proofs.Program.Accounted
import MonkeyLang.Proofs.Program.Accounting
import MonkeyLang.Proofs.Program.Ahead
import MonkeyLang.Proofs.Program.Attempts
import MonkeyLang.Proofs.Program.Beginning
import MonkeyLang.Proofs.Program.Blocks
import MonkeyLang.Proofs.Program.Consumed
import MonkeyLang.Proofs.Program.Core
import MonkeyLang.Proofs.Program.Data
import MonkeyLang.Proofs.Program.Delimiting
import MonkeyLang.Proofs.Program.Documents
import MonkeyLang.Proofs.Program.FloatLiterals
import MonkeyLang.Proofs.Program.Fuel
import MonkeyLang.Proofs.Program.Joined
import MonkeyLang.Proofs.Program.Laying
import MonkeyLang.Proofs.Program.Nesting
import MonkeyLang.Proofs.Program.Offsets
import MonkeyLang.Proofs.Program.Operands
import MonkeyLang.Proofs.Program.Outline
import MonkeyLang.Proofs.Program.Parsing
import MonkeyLang.Proofs.Program.Parts
import MonkeyLang.Proofs.Program.Recovery
import MonkeyLang.Proofs.Program.Regrouping
import MonkeyLang.Proofs.Program.Reloading
import MonkeyLang.Proofs.Program.Rereading
import MonkeyLang.Proofs.Program.Spelling
import MonkeyLang.Proofs.Program.Sugar
import MonkeyLang.Proofs.Program.Taking
import MonkeyLang.Proofs.Program.Unclosed
import MonkeyLang.Proofs.Program.Whole
import MonkeyLang.Proofs.Program.WithoutEnd
import MonkeyLang.Proofs.Program.WordByWord
import MonkeyLang.Proofs.Program.Words
import MonkeyLang.Proofs.Program.Writing
import MonkeyLang.Proofs.Scope.Refinement
import MonkeyLang.Proofs.Session.Answers
import MonkeyLang.Proofs.Session.Arithmetic
import MonkeyLang.Proofs.Session.Batch
import MonkeyLang.Proofs.Session.Calls
import MonkeyLang.Proofs.Session.Comparisons
import MonkeyLang.Proofs.Session.Earlier
import MonkeyLang.Proofs.Session.Reading
import MonkeyLang.Proofs.Session.Rejected
import MonkeyLang.Proofs.Session.Safety
import MonkeyLang.Proofs.Session.StringLiterals
import MonkeyLang.Proofs.Settings.Layering
import MonkeyLang.Proofs.Settings.Tables
import MonkeyLang.Proofs.Simulation.Calls
import MonkeyLang.Proofs.Simulation.Code
import MonkeyLang.Proofs.Simulation.Host
import MonkeyLang.Proofs.Simulation.Instructions
import MonkeyLang.Proofs.Simulation.Meaning
import MonkeyLang.Proofs.Simulation.Program
import MonkeyLang.Proofs.Simulation.Rules
import MonkeyLang.Proofs.Simulation.Run
import MonkeyLang.Proofs.Stateful
import MonkeyLang.Proofs.Text.Lines
import MonkeyLang.Proofs.Token.Cuts
import MonkeyLang.Proofs.Token.Identifiers
import MonkeyLang.Proofs.Token.LineByLine
import MonkeyLang.Proofs.Token.Scanning
import MonkeyLang.Proofs.Token.Tiling
import MonkeyLang.Proofs.Toml.Tables
import MonkeyLang.Proofs.Toml.Reading
import MonkeyLang.Proofs.Toml.Standard
import MonkeyLang.Proofs.Toml.WrittenStrings
import MonkeyLang.Proofs.Value.Conversions
import MonkeyLang.Proofs.Value.Equality
import MonkeyLang.Proofs.Value.Opaque
import MonkeyLang.Proofs.Value.Orders
import MonkeyLang.Proofs.Value.Sequences
import MonkeyLang.Scope
import MonkeyLang.Session.Evaluate
import MonkeyLang.Session.Interactive
import MonkeyLang.Settings.Basic
import MonkeyLang.Settings.Layers
import MonkeyLang.Settings.Loader
import MonkeyLang.Settings.Schema
import MonkeyLang.Span
import MonkeyLang.Text.Alphabetic
import MonkeyLang.Text.Escaped
import MonkeyLang.Text.Lines
import MonkeyLang.Text.Numeric
import MonkeyLang.Text.Quoted
import MonkeyLang.Text.Ranges
import MonkeyLang.Token.Basic
import MonkeyLang.Token.Lexer
import MonkeyLang.Toml.Basic
import MonkeyLang.Toml.Reader
import MonkeyLang.Toml.Strings
import MonkeyLang.Toml.Writer
import MonkeyLang.Value.Basic
import MonkeyLang.Value.Operator
import MonkeyLang.Value.Text
import MonkeyLang.Proofs.Settings.Rereading
