import ContractAudit.Advice.Basic
import ContractAudit.Analysis.Analyzer
import ContractAudit.Analysis.Detector
import ContractAudit.Analysis.Expansion
import ContractAudit.Analysis.Loader
import ContractAudit.Analysis.Manifest
import ContractAudit.Analysis.Result
import ContractAudit.Command.Console
import ContractAudit.Command.Invocation
import ContractAudit.Command.Run
import ContractAudit.Command.Session
import ContractAudit.Command.Switch
import ContractAudit.Detect.Builtin
import ContractAudit.Detect.LockedEther
import ContractAudit.Detect.Packed
import ContractAudit.Detect.Panic
import ContractAudit.Detect.Place
import ContractAudit.Detect.Transfer
import ContractAudit.Detect.Unwrap
import ContractAudit.Files.Change
import ContractAudit.Files.Entry
import ContractAudit.Files.FileSystem
import ContractAudit.Files.Glob
import ContractAudit.Files.Path
import ContractAudit.Files.Project
import ContractAudit.Install.Grammar
import ContractAudit.Install.Library
import ContractAudit.Install.Package
import ContractAudit.Issue
import ContractAudit.Journal
import ContractAudit.Main
import ContractAudit.Number.Binary64
import ContractAudit.Number.Decimal
import ContractAudit.Proofs.Analysis.Isolation
import ContractAudit.Proofs.Analysis.Loading
import ContractAudit.Proofs.Analysis.Pathless
import ContractAudit.Proofs.Analysis.Reported
import ContractAudit.Proofs.Analysis.SameFile
import ContractAudit.Proofs.Command.Advice
import ContractAudit.Proofs.Command.Console
import ContractAudit.Proofs.Command.Directory
import ContractAudit.Proofs.Command.Job
import ContractAudit.Proofs.Detect.ActiveCode
import ContractAudit.Proofs.Detect.BoundResult
import ContractAudit.Proofs.Detect.CallsAround
import ContractAudit.Proofs.Detect.Checked
import ContractAudit.Proofs.Detect.CommentedOut
import ContractAudit.Proofs.Detect.Covered
import ContractAudit.Proofs.Detect.Delimited
import ContractAudit.Proofs.Detect.Discarded
import ContractAudit.Proofs.Detect.Drift
import ContractAudit.Proofs.Detect.Fresh
import ContractAudit.Proofs.Detect.InSource
import ContractAudit.Proofs.Detect.Ledger
import ContractAudit.Proofs.Detect.Origin
import ContractAudit.Proofs.Detect.PayableAttribute
import ContractAudit.Proofs.Detect.SectionNames
import ContractAudit.Proofs.Detect.TestedBinding
import ContractAudit.Proofs.Detect.TokenCalls
import ContractAudit.Proofs.Files.Discovery
import ContractAudit.Proofs.Files.Names
import ContractAudit.Proofs.Files.Patterns
import ContractAudit.Proofs.Files.Spelling
import ContractAudit.Proofs.Files.Walk
import ContractAudit.Proofs.Position.Builtin
import ContractAudit.Proofs.Position.LockedEther
import ContractAudit.Proofs.Position.Place
import ContractAudit.Proofs.Position.Section
import ContractAudit.Proofs.Position.Transfer
import ContractAudit.Proofs.Position.Tree
import ContractAudit.Proofs.Registry.Growth
import ContractAudit.Proofs.Registry.Imports
import ContractAudit.Proofs.Report.Composition
import ContractAudit.Proofs.Report.Entries
import ContractAudit.Proofs.Report.ErrorsShown
import ContractAudit.Proofs.Report.Layout
import ContractAudit.Proofs.Report.Reading
import ContractAudit.Proofs.Rust.Comments
import ContractAudit.Proofs.Solidity.CallLine
import ContractAudit.Proofs.Solidity.Extent
import ContractAudit.Proofs.Solidity.FunctionScan
import ContractAudit.Proofs.Solidity.Macro
import ContractAudit.Proofs.Text.Bytes
import ContractAudit.Proofs.Text.Cuts
import ContractAudit.Proofs.Text.Lines
import ContractAudit.Proofs.Text.Rows
import ContractAudit.Proofs.Tree.Enclosing
import ContractAudit.Proofs.Tree.Nesting
import ContractAudit.Proofs.Tree.NodeText
import ContractAudit.Registry
import ContractAudit.Registry.Import
import ContractAudit.Registry.Importer
import ContractAudit.Registry.Module
import ContractAudit.Report.Document
import ContractAudit.Report.Group
import ContractAudit.Report.Listing
import ContractAudit.Report.Record
import ContractAudit.Report.Timestamp
import ContractAudit.Rust.Block
import ContractAudit.Rust.Cursor
import ContractAudit.Rust.Expression
import ContractAudit.Rust.Item
import ContractAudit.Rust.Lexeme
import ContractAudit.Rust.Operator
import ContractAudit.Rust.Parser
import ContractAudit.Rust.Path
import ContractAudit.Rust.Pattern
import ContractAudit.Rust.TokenTree
import ContractAudit.Rust.Type
import ContractAudit.Solidity.Section
import ContractAudit.Solidity.Transfer
import ContractAudit.Text.Basic
import ContractAudit.Text.Blank
import ContractAudit.Text.Newline
import ContractAudit.Text.Quoted
import ContractAudit.Text.Ranges
import ContractAudit.Text.Rough
import ContractAudit.Text.Shown
import ContractAudit.Text.Similar
import ContractAudit.Text.Unstyled
import ContractAudit.Text.Utf8
import ContractAudit.Text.Word
import ContractAudit.Tree.Node
import ContractAudit.Value.Access
import ContractAudit.Value.Basic
import ContractAudit.Value.Reader
import ContractAudit.Value.Writer
