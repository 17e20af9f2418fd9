import TestBench.Arguments
import TestBench.ByteString
import TestBench.Check
import TestBench.Coverage
import TestBench.Deed
import TestBench.Failure
import TestBench.Fault
import TestBench.FileTree.Basic
import TestBench.FileTree.Fixture
import TestBench.FileTree.Request
import TestBench.FileTree.Resolve
import TestBench.Log
import TestBench.Log.Filter
import TestBench.Log.Line
import TestBench.Lookup
import TestBench.Main
import TestBench.Options.Basic
import TestBench.Options.Reading
import TestBench.Options.Variables
import TestBench.Path
import TestBench.Program
import TestBench.Project
import TestBench.Proofs.FileTree.Request
import TestBench.Proofs.FileTree.Way
import TestBench.Proofs.Path
import TestBench.Proofs.Project.Handover
import TestBench.Proofs.Source.Directive
import TestBench.Proofs.Source.Extraction
import TestBench.Proofs.Source.FileScope
import TestBench.Proofs.Source.Fragment
import TestBench.Proofs.Source.Header
import TestBench.Proofs.Source.Header.Cells
import TestBench.Proofs.Source.Header.Lexing
import TestBench.Proofs.Source.Header.Reading
import TestBench.Proofs.Source.Merge
import TestBench.Proofs.Source.Prototype
import TestBench.Proofs.Source.Slice
import TestBench.Proofs.Stages.Calls
import TestBench.Proofs.Stages.Run
import TestBench.Proofs.Text.Encoding
import TestBench.Proofs.Tool.Calls
import TestBench.Proofs.Workspace.Lock
import TestBench.Repository
import TestBench.Shell.Arithmetic
import TestBench.Shell.Command
import TestBench.Shell.Condition
import TestBench.Shell.Executable
import TestBench.Shell.Expansion
import TestBench.Shell.Format
import TestBench.Shell.Pattern
import TestBench.Shell.Run
import TestBench.Shell.Session
import TestBench.Shell.Token
import TestBench.Shell.Utility
import TestBench.Shell.Word
import TestBench.Source.Cell
import TestBench.Source.Declaration
import TestBench.Source.Extract
import TestBench.Source.FileScope
import TestBench.Source.Lexeme
import TestBench.Source.Offset.Basic
import TestBench.Source.Offset.Extract
import TestBench.Source.Offset.FileScope
import TestBench.Source.Offset.Masking
import TestBench.Source.Offset.Prototype
import TestBench.Source.Prototype
import TestBench.SourceFile
import TestBench.Stages
import TestBench.Template
import TestBench.Template.Bundled
import TestBench.TestModule
import TestBench.Text.Blank
import TestBench.Text.Digits
import TestBench.Text.Normal
import TestBench.Text.Normal.Table
import TestBench.Text.Pieces
import TestBench.Text.Table
import TestBench.Text.Utf8
import TestBench.Text.Word
import TestBench.Toml.Document
import TestBench.Toml.Quoted
import TestBench.Toml.Scalar
import TestBench.Toml.Token
import TestBench.Toml.Value
import TestBench.Tool
import TestBench.Tool.Launch
import TestBench.Tool.Script
import TestBench.Web.Address
import TestBench.Web.Domain
import TestBench.Web.Domain.Bidi
import TestBench.Web.Domain.Label
import TestBench.Web.Domain.Mapping
import TestBench.Web.Domain.Table
import TestBench.Web.Host
import TestBench.Web.Ipv4
import TestBench.Web.Ipv6
import TestBench.Web.Punycode
import TestBench.Workspace.Basic
import TestBench.Workspace.Cleaning
import TestBench.Workspace.Lock
import TestBench.World
import TestBench.Proofs.Source.Run
import TestBench.Proofs.Source.Whole
import TestBench.Proofs.Source.Alike
import TestBench.Proofs.Source.Seam
import TestBench.Proofs.Source.Nesting
import TestBench.Proofs.Source.Bare
import TestBench.Proofs.Source.Bare.Reading
import TestBench.Proofs.Source.Line
import TestBench.Proofs.Source.Gathered
import TestBench.Proofs.Source.Comment
import TestBench.Proofs.World
import TestBench.Proofs.FileTree.Put
import TestBench.Proofs.Tool.Quiet
import TestBench.Proofs.FileTree.Extends
import TestBench.Proofs.FileTree.Part
import TestBench.Proofs.FileTree.Proper
import TestBench.Proofs.Workspace.Root
import TestBench.Proofs.Workspace.Cleaning
import TestBench.Proofs.Workspace.Holding
import TestBench.Proofs.Stages.Phase
import TestBench.Proofs.Stages.Sharing
import TestBench.Proofs.Project.Generation
import TestBench.Proofs.Project.Keeping
import TestBench.Proofs.Project.Outputs
import TestBench.Proofs.Project.Cleanup
import TestBench.Proofs.Tool.Exchange
import TestBench.Proofs.Project.Exchanges
import TestBench.Proofs.Source.Linkage
import TestBench.Proofs.Project.Sharing
import TestBench.Proofs.Source.Spacing
import TestBench.Proofs.Source.Prototype.Grammar
import TestBench.Proofs.Source.Swap
import TestBench.Proofs.Source.Swap.Reading
import TestBench.Proofs.Source.Interior
import TestBench.Proofs.Source.Returns
import TestBench.Proofs.Template
import TestBench.Proofs.Deed
import TestBench.Proofs.Project.Confinement
import TestBench.Proofs.FileTree.Retraces
import TestBench.Proofs.FileTree.Grounded
import TestBench.Proofs.Repeats
import TestBench.Proofs.Project.Sources
import TestBench.Proofs.Project.Repetition
import TestBench.Proofs.Workspace.Cleaned
import TestBench.Proofs.Workspace.Reuse
import TestBench.Proofs.Project.Again
import TestBench.Proofs.Source.Foremost
import TestBench.Proofs.Source.Bytewise
import TestBench.Proofs.Source.Gathered.Directives
import TestBench.Proofs.Source.Conditional
import TestBench.Proofs.Template.Junction
import TestBench.Proofs.Lookup
import TestBench.Proofs.Path.Names
import TestBench.Proofs.Lookup.Choice
import TestBench.Proofs.Lookup.Accepted
import TestBench.Proofs.Check
import TestBench.Proofs.Workspace.Remainder
import TestBench.Proofs.Source.Statement
import TestBench.Proofs.Text.Decoding
import TestBench.Proofs.Project.Written
import TestBench.Proofs.Options.Variables
import TestBench.Proofs.Web.Host
import TestBench.Proofs.Web.Address
import TestBench.Proofs.Repository
import TestBench.Proofs.Toml.Quoted
import TestBench.Proofs.Toml.Table
import TestBench.Proofs.Toml.Item
import TestBench.Proofs.Toml.Pair
import TestBench.Proofs.Toml.Document
import TestBench.Proofs.Options.Reading
import TestBench.Proofs.Project.Artifact
import TestBench.Proofs.Source.Offset.Basic
import TestBench.Proofs.Source.Offset.Masking
import TestBench.Proofs.Source.Offset.Prototype
import TestBench.Proofs.Source.Offset.Lookahead
import TestBench.Proofs.Source.Offset.FileScope
import TestBench.Proofs.Source.Offset.Extract
import TestBench.Proofs.Source.Offset.Grammar
