import Polyloft.Analysis
import Polyloft.Analyzer
import Polyloft.Catalog
import Polyloft.Catalog.Load
import Polyloft.Catalog.Reader
import Polyloft.Catalog.Standard
import Polyloft.CommandLine
import Polyloft.CommandLine.Arguments
import Polyloft.CommandLine.Command
import Polyloft.Decimal
import Polyloft.Declaration
import Polyloft.Declaration.Collect
import Polyloft.Declaration.Lineage
import Polyloft.Declaration.Mutability
import Polyloft.Declaration.Shape
import Polyloft.Declaration.Signature
import Polyloft.Diagnostic
import Polyloft.Document
import Polyloft.Document.Comment
import Polyloft.Double
import Polyloft.Failure
import Polyloft.Fault
import Polyloft.FileTree
import Polyloft.Inference
import Polyloft.Inference.Expression
import Polyloft.Inference.Memo
import Polyloft.Json
import Polyloft.Main
import Polyloft.Module
import Polyloft.Module.Directory
import Polyloft.Parameter
import Polyloft.Path
import Polyloft.Proofs.Analyzer
import Polyloft.Proofs.BlankLine.Check
import Polyloft.Proofs.BlankLine.Declaration
import Polyloft.Proofs.BlankLine.Document
import Polyloft.Proofs.BlankLine.Expression
import Polyloft.Proofs.BlankLine.Inference
import Polyloft.Proofs.BlankLine.Report
import Polyloft.Proofs.BlankLine.Rule
import Polyloft.Proofs.BlankLine.Scope
import Polyloft.Proofs.BlankLine.Token
import Polyloft.Proofs.BlankLine.Typing
import Polyloft.Proofs.Catalog.Json
import Polyloft.Proofs.Catalog.Lookup
import Polyloft.Proofs.Catalog.Shape
import Polyloft.Proofs.Causal.Declaration
import Polyloft.Proofs.Causal.Report
import Polyloft.Proofs.Causal.Scope
import Polyloft.Proofs.Comment.Bare
import Polyloft.Proofs.Comment.Blank
import Polyloft.Proofs.Comment.Report
import Polyloft.Proofs.Comment.Scan
import Polyloft.Proofs.Declaration.ClassScope
import Polyloft.Proofs.Declaration.Column
import Polyloft.Proofs.Declaration.Header
import Polyloft.Proofs.Declaration.Initializer
import Polyloft.Proofs.Declaration.Lineage
import Polyloft.Proofs.Declaration.Name
import Polyloft.Proofs.Declaration.OneLine
import Polyloft.Proofs.Declaration.Prefix
import Polyloft.Proofs.Declaration.Table
import Polyloft.Proofs.Declaration.Visible
import Polyloft.Proofs.Declaration.Written
import Polyloft.Proofs.Inference.Access
import Polyloft.Proofs.Inference.Construction
import Polyloft.Proofs.Inference.Guarded
import Polyloft.Proofs.Inference.Literal
import Polyloft.Proofs.Inference.Numeric
import Polyloft.Proofs.Inference.Placed
import Polyloft.Proofs.Inference.Plain
import Polyloft.Proofs.Inference.Question
import Polyloft.Proofs.Inference.Relation
import Polyloft.Proofs.Inference.Returns
import Polyloft.Proofs.Inference.Stable
import Polyloft.Proofs.Inference.Total
import Polyloft.Proofs.Inference.Transparent
import Polyloft.Proofs.Inference.WellFormed
import Polyloft.Proofs.LineEnding
import Polyloft.Proofs.Parameter.Column
import Polyloft.Proofs.Parameter.Grammar
import Polyloft.Proofs.Parameter.Render
import Polyloft.Proofs.Parameter.Split
import Polyloft.Proofs.Parameter.TopLevel
import Polyloft.Proofs.Place.Declaration
import Polyloft.Proofs.Place.Report
import Polyloft.Proofs.Place.Token
import Polyloft.Proofs.Query.Agreement
import Polyloft.Proofs.Query.Completion
import Polyloft.Proofs.Query.Documentation
import Polyloft.Proofs.Query.Inheritance
import Polyloft.Proofs.Query.Member
import Polyloft.Proofs.Query.Receiver
import Polyloft.Proofs.Query.Total
import Polyloft.Proofs.Rule.Assembly
import Polyloft.Proofs.Rule.Brace
import Polyloft.Proofs.Rule.Context
import Polyloft.Proofs.Rule.Direct
import Polyloft.Proofs.Rule.Independent
import Polyloft.Proofs.Rule.Reassignment
import Polyloft.Proofs.Rule.Report
import Polyloft.Proofs.Rule.Shadow
import Polyloft.Proofs.Rule.Succession
import Polyloft.Proofs.Rule.Total
import Polyloft.Proofs.Rule.Typing
import Polyloft.Proofs.Rule.Unreachable
import Polyloft.Proofs.Scope.Balance
import Polyloft.Proofs.Scope.Bounds
import Polyloft.Proofs.Scope.Builder
import Polyloft.Proofs.Scope.Children
import Polyloft.Proofs.Scope.Coherent
import Polyloft.Proofs.Scope.HeaderLine
import Polyloft.Proofs.Scope.Holders
import Polyloft.Proofs.Scope.Ledger
import Polyloft.Proofs.Scope.Move
import Polyloft.Proofs.Scope.Nesting
import Polyloft.Proofs.Scope.Origin
import Polyloft.Proofs.Scope.Program
import Polyloft.Proofs.Scope.WellFormed
import Polyloft.Proofs.Token.Brace
import Polyloft.Proofs.Token.Bracketed
import Polyloft.Proofs.Token.Cursor
import Polyloft.Proofs.Token.Front
import Polyloft.Proofs.Token.Lossless
import Polyloft.Proofs.Token.Masked
import Polyloft.Proofs.Token.Numeral
import Polyloft.Proofs.Token.Partner
import Polyloft.Proofs.Token.Placed
import Polyloft.Proofs.Token.Region
import Polyloft.Proofs.Token.Spelling
import Polyloft.Proofs.Token.Trimmed
import Polyloft.Proofs.Token.Word
import Polyloft.Proofs.Ty.Assignable
import Polyloft.Proofs.Ty.Grammar
import Polyloft.Proofs.Ty.Join
import Polyloft.Proofs.Ty.Render
import Polyloft.Proofs.Ty.Same
import Polyloft.Proofs.Ty.Tokens
import Polyloft.Proofs.Ty.WellFormed
import Polyloft.Query.Completion
import Polyloft.Query.Definition
import Polyloft.Query.Hover
import Polyloft.Query.Receiver
import Polyloft.Query.Symbol
import Polyloft.Rule
import Polyloft.Rule.Declared
import Polyloft.Rule.Flow
import Polyloft.Rule.Report
import Polyloft.Rule.Spelling
import Polyloft.Rule.Structure
import Polyloft.Rule.Typing
import Polyloft.Scope.Construct
import Polyloft.Scope.Frame
import Polyloft.Scope.Tree
import Polyloft.Settings
import Polyloft.Text.Blank
import Polyloft.Text.Cursor
import Polyloft.Text.Digit
import Polyloft.Text.Identifier
import Polyloft.Text.Newline
import Polyloft.Text.Printable
import Polyloft.Text.Quoted
import Polyloft.Text.Ranges
import Polyloft.Text.Split
import Polyloft.Text.Utf8
import Polyloft.Text.Word
import Polyloft.Timestamp
import Polyloft.Token
import Polyloft.Token.Brackets
import Polyloft.Token.Lexer
import Polyloft.Ty
import Polyloft.Ty.Parser
import Polyloft.Value
import Polyloft.Yaml
import Polyloft.Yaml.Node
import Polyloft.Yaml.Scalar
import Polyloft.Yaml.Timestamp
import Polyloft.Yaml.Token
