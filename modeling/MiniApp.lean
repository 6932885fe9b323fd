import MiniApp.App
import MiniApp.Command.Arguments
import MiniApp.Command.Execute
import MiniApp.Command.Failure
import MiniApp.Command.Source
import MiniApp.Command.Transcript
import MiniApp.Data.Basic
import MiniApp.Data.Json
import MiniApp.Data.Moment
import MiniApp.Data.Toml
import MiniApp.Diagnostic
import MiniApp.Double.Basic
import MiniApp.Double.Shortest
import MiniApp.Double.Text
import MiniApp.Eval.Evaluate
import MiniApp.Eval.Operation
import MiniApp.Eval.Session
import MiniApp.Fault
import MiniApp.Files
import MiniApp.Lint.Basic
import MiniApp.Lint.File
import MiniApp.Lint.Rules
import MiniApp.Main
import MiniApp.Meter
import MiniApp.Number
import MiniApp.Path
import MiniApp.Position
import MiniApp.Scope
import MiniApp.Settings.Basic
import MiniApp.Settings.Load
import MiniApp.Settings.Read
import MiniApp.Syntax.Basic
import MiniApp.Syntax.Cursor
import MiniApp.Syntax.Listing
import MiniApp.Syntax.Operator
import MiniApp.Syntax.Parse
import MiniApp.Syntax.Print
import MiniApp.Syntax.Same
import MiniApp.Text.Blank
import MiniApp.Text.Cased
import MiniApp.Text.CharSet
import MiniApp.Text.Digit
import MiniApp.Text.Edits
import MiniApp.Text.Lowercase
import MiniApp.Text.Numeral
import MiniApp.Text.Printable
import MiniApp.Text.Quoted
import MiniApp.Text.Search
import MiniApp.Text.Utf8
import MiniApp.Text.Word
import MiniApp.Token.Basic
import MiniApp.Token.Kind
import MiniApp.Token.Scan
import MiniApp.Value
import MiniApp.Proofs.Places
import MiniApp.Proofs.Grammar
import MiniApp.Proofs.Grammar.Triple
import MiniApp.Proofs.Grammar.Soundness
import MiniApp.Proofs.Grammar.Completeness
import MiniApp.Proofs.Grammar.Decision
import MiniApp.Proofs.Format.Layout
import MiniApp.Proofs.Format.Lexemes
import MiniApp.Proofs.Format.Unplaced
import MiniApp.Proofs.Format.RoundTrip
import MiniApp.Proofs.Eval.Alike
import MiniApp.Proofs.Eval.Pairing
import MiniApp.Proofs.Eval.Lockstep
import MiniApp.Proofs.Arena
import MiniApp.Proofs.Arena.Restoration
import MiniApp.Proofs.Eval.Twins
import MiniApp.Proofs.Eval.Reclamation
import MiniApp.Proofs.Grammar.Extents
import MiniApp.Proofs.Eval.LexicalScoping
import MiniApp.Proofs.Lexeme.Longest
import MiniApp.Proofs.Lexeme.Split
import MiniApp.Proofs.Eval.Outline
import MiniApp.Proofs.Eval.Relayout
import MiniApp.Proofs.Eval.Leaving
import MiniApp.Proofs.Eval.Faults
import MiniApp.Proofs.Eval.Calm
import MiniApp.Proofs.Eval.Congruence
import MiniApp.Proofs.Eval.Growth
import MiniApp.Proofs.Eval.Limits
import MiniApp.Proofs.Eval.Endings
import MiniApp.Proofs.Eval.Evolution
import MiniApp.Proofs.Eval.Counters
import MiniApp.Proofs.Eval.Restoration
import MiniApp.Proofs.Eval.Shift
import MiniApp.Proofs.Eval.Isolation
import MiniApp.Proofs.Eval.Termination
import MiniApp.Proofs.Eval.Account
import MiniApp.Proofs.Eval.Provenance
import MiniApp.Proofs.Eval.Quiet
import MiniApp.Proofs.Eval.Recount
import MiniApp.Proofs.Eval.Snapshots
import MiniApp.Proofs.Eval.Content
import MiniApp.Proofs.Eval.Jumps
import MiniApp.Proofs.Grammar.Parts
import MiniApp.Proofs.Eval.Declarations
import MiniApp.Proofs.Grammar.Sections
import MiniApp.Proofs.Eval.Record
import MiniApp.Proofs.Eval.Nesting
import MiniApp.Proofs.Eval.Chains
import MiniApp.Proofs.Arena.History
import MiniApp.Proofs.Arena.Bindings
import MiniApp.Proofs.Eval.Bindings
import MiniApp.Proofs.Grammar.Admission
import MiniApp.Proofs.Eval.Places
import MiniApp.Proofs.Eval.Reports
import MiniApp.Proofs.Rounding
import MiniApp.Proofs.Eval.Remainder
import MiniApp.Proofs.Equality
import MiniApp.Proofs.Grammar.FirstTokens
import MiniApp.Proofs.Arena.Values
import MiniApp.Proofs.Eval.Origins
import MiniApp.Proofs.Eval.Tracing
import MiniApp.Proofs.Eval.Identity
import MiniApp.Proofs.Lexeme.Separation
import MiniApp.Proofs.Grammar.Relocation
import MiniApp.Proofs.Lexeme.Joining
import MiniApp.Proofs.Grammar.Composition
import MiniApp.Proofs.Grammar.ContextFree
import MiniApp.Proofs.Grammar.Viability
import MiniApp.Proofs.Grammar.Antecedents
import MiniApp.Proofs.Lexeme.Neighbours
import MiniApp.Proofs.Lint.Lines
import MiniApp.Proofs.Lint.Declarations
import MiniApp.Proofs.Lint.Naming
import MiniApp.Proofs.Lint.Schedule
import MiniApp.Proofs.Lint.Search
import MiniApp.Proofs.Lint.Findings
import MiniApp.Proofs.Lint.Canonical
import MiniApp.Proofs.Settings
import MiniApp.Proofs.Arena.Visibility
import MiniApp.Proofs.Edits
import MiniApp.Proofs.Grammar.Accord
import MiniApp.Proofs.Grammar.Progress
import MiniApp.Proofs.Json
import MiniApp.Proofs.Json.Numbers
import MiniApp.Proofs.Json.Writing
