import ScriptConsole.Registry.Memo
import ScriptConsole.Registry.Standard
import ScriptConsole.Session
import ScriptConsole.Proofs.Token.Cut
import ScriptConsole.Proofs.Token.Form
import ScriptConsole.Proofs.Token.Longest
import ScriptConsole.Proofs.Token.Spelling
import ScriptConsole.Proofs.Expr.Grammar
import ScriptConsole.Proofs.Expr.Parsing
import ScriptConsole.Proofs.Chain.Completable
import ScriptConsole.Proofs.Chain.Layout
import ScriptConsole.Proofs.Chain.Path
import ScriptConsole.Proofs.Chain.Spans
import ScriptConsole.Proofs.Chain.Spine
import ScriptConsole.Proofs.Resolution.Live
import ScriptConsole.Proofs.Resolution.Step
import ScriptConsole.Proofs.Expr.Writing
import ScriptConsole.Proofs.Expr.Printing
import ScriptConsole.Proofs.Expr.Depth
import ScriptConsole.Proofs.Registry.Nearest
import ScriptConsole.Proofs.Registry.Lineage
import ScriptConsole.Proofs.Registry.Packages
import ScriptConsole.Proofs.Registry.Kinds
import ScriptConsole.Proofs.Registry.History
import ScriptConsole.Proofs.Registry.Reordering
import ScriptConsole.Proofs.Registry.Remembered
import ScriptConsole.Proofs.Member.Listing
import ScriptConsole.Proofs.Session.Reachable
import ScriptConsole.Proofs.Resolution.Offered
import ScriptConsole.Proofs.Resolution.FullName
import ScriptConsole.Proofs.Resolution.Shown
import ScriptConsole.Proofs.Session.Agreement
import ScriptConsole.Proofs.Session.Statements
import ScriptConsole.Proofs.Scope.History
import ScriptConsole.Proofs.Session.Consistency
import ScriptConsole.Proofs.Session.Readback
import ScriptConsole.Proofs.Token.Seam
import ScriptConsole.Proofs.Expr.Lines
import ScriptConsole.Proofs.Session.Assignment
import ScriptConsole.Proofs.Token.Spacing
import ScriptConsole.Proofs.Session.Imports
import ScriptConsole.Proofs.Text.ByteOrder
import ScriptConsole.Proofs.Completion.Matching
import ScriptConsole.Proofs.Chain.Typing
import ScriptConsole.Proofs.Completion.Narrowing
import ScriptConsole.Proofs.Chain.Shift
import ScriptConsole.Proofs.Completion.Behind
import ScriptConsole.Proofs.Completion.Asked
import ScriptConsole.Proofs.Completion.Declared
import ScriptConsole.Proofs.Completion.Unmentioned
import ScriptConsole.Proofs.Expr.Extension
import ScriptConsole.Proofs.Value.Equality
import ScriptConsole.Proofs.Value.Hashing
import ScriptConsole.Proofs.Expr.Sign
import ScriptConsole.Proofs.Completion.Emitted
import ScriptConsole.Proofs.Evaluation.Runs
import ScriptConsole.Proofs.Text.Positions
import ScriptConsole.Proofs.Chain.Faults
import ScriptConsole.Proofs.Expr.Literals
import ScriptConsole.Proofs.Resolution.WellFormed
import ScriptConsole.Proofs.Chain.Groups
import ScriptConsole.Proofs.Member.Union
