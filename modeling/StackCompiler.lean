import StackCompiler.Command.Arguments
import StackCompiler.Command.Config
import StackCompiler.Command.Directory
import StackCompiler.Command.Report
import StackCompiler.Command.Run
import StackCompiler.Declaration.Basic
import StackCompiler.Declaration.Build
import StackCompiler.Declaration.Error
import StackCompiler.Declaration.Graph
import StackCompiler.Declaration.Reader
import StackCompiler.Declaration.Repair
import StackCompiler.Declaration.Usage
import StackCompiler.Distinct
import StackCompiler.FieldPath
import StackCompiler.Import.Argument
import StackCompiler.Import.Cycle
import StackCompiler.Import.Entry
import StackCompiler.Import.Error
import StackCompiler.Import.Identifiers
import StackCompiler.Import.Progress
import StackCompiler.Import.Property
import StackCompiler.Import.SourceTree
import StackCompiler.Import.Static
import StackCompiler.Intrinsic
import StackCompiler.Json.Basic
import StackCompiler.Json.Cursor
import StackCompiler.Json.Fault
import StackCompiler.Json.Reader
import StackCompiler.Json.Record
import StackCompiler.Json.Writer
import StackCompiler.Main
import StackCompiler.Members
import StackCompiler.Number.Basic
import StackCompiler.Number.Binary64
import StackCompiler.Number.Decimal
import StackCompiler.Number.Numeral
import StackCompiler.Number.Power
import StackCompiler.Number.Text
import StackCompiler.Registry.Category
import StackCompiler.Registry.Namespace
import StackCompiler.Registry.Type
import StackCompiler.Rust.Expr
import StackCompiler.Rust.ExprText
import StackCompiler.Rust.Identifier
import StackCompiler.Rust.Layout
import StackCompiler.Rust.NameTable
import StackCompiler.Rust.SourceFile
import StackCompiler.Schema.Inferred
import StackCompiler.Schema.Lookup
import StackCompiler.Schema.Shape
import StackCompiler.Schema.Specification
import StackCompiler.Template.Basic
import StackCompiler.Template.Document
import StackCompiler.Template.Emit
import StackCompiler.Template.Error
import StackCompiler.Template.Format
import StackCompiler.Template.Implicit
import StackCompiler.Template.Name
import StackCompiler.Template.Reader
import StackCompiler.Template.References
import StackCompiler.Template.ShortForm
import StackCompiler.Template.SourceText
import StackCompiler.Text.Blank
import StackCompiler.Text.Case
import StackCompiler.Text.CaseTable
import StackCompiler.Text.Interval
import StackCompiler.Text.Lines
import StackCompiler.Text.Literal
import StackCompiler.Text.Shape
import StackCompiler.Text.ShapeTable
import StackCompiler.Text.WordCase
import StackCompiler.Toml.Reader
import StackCompiler.Toml.Scalar
import StackCompiler.Toml.Table
import StackCompiler.Toml.Time
import StackCompiler.Value.Basic
import StackCompiler.Value.Decode
import StackCompiler.Value.Decoder
import StackCompiler.Value.Edit
import StackCompiler.Value.Encode
import StackCompiler.Value.Reference
import StackCompiler.Value.Walk
import StackCompiler.Yaml.Cursor
import StackCompiler.Yaml.Lexer
import StackCompiler.Yaml.Node
import StackCompiler.Yaml.Problem
import StackCompiler.Yaml.Reader
import StackCompiler.Yaml.Scalar
import StackCompiler.Yaml.ScalarText
import StackCompiler.Yaml.Style
import StackCompiler.Yaml.Tag
import StackCompiler.Yaml.Token
import StackCompiler.Yaml.Tree
import StackCompiler.Yaml.Writer
import StackCompiler.Proofs.Outcome
import StackCompiler.Proofs.Equality
import StackCompiler.Proofs.Text.Cuts
import StackCompiler.Proofs.Value.Layout
import StackCompiler.Proofs.Value.Decoding
import StackCompiler.Proofs.Value.RoundTrip
import StackCompiler.Proofs.Value.Respelling
import StackCompiler.Proofs.Declaration.GraphContents
import StackCompiler.Proofs.Declaration.GraphOrder
import StackCompiler.Proofs.Declaration.GraphCycle
import StackCompiler.Proofs.Value.Parts
import StackCompiler.Proofs.Declaration.Repair
import StackCompiler.Proofs.Registry.Type
import StackCompiler.Proofs.Declaration.Names
import StackCompiler.Proofs.Declaration.Build
import StackCompiler.Proofs.Declaration.Assembly
import StackCompiler.Proofs.Template.Reading
import StackCompiler.Proofs.Template.Values
import StackCompiler.Proofs.Template.Documents
import StackCompiler.Proofs.Template.RoundTrip
import StackCompiler.Proofs.Json.Nodes
import StackCompiler.Proofs.Yaml.Tags
import StackCompiler.Proofs.Template.Tags
import StackCompiler.Proofs.Json.Dotted
import StackCompiler.Proofs.Json.Reading
import StackCompiler.Proofs.Json.Record
import StackCompiler.Proofs.Yaml.ShortForm
import StackCompiler.Proofs.Value.Dotted
import StackCompiler.Proofs.Value.Depth
import StackCompiler.Proofs.Template.Dotted
import StackCompiler.Proofs.Import.Forest
import StackCompiler.Proofs.Rust.NameTable
import StackCompiler.Proofs.Rust.Nodes
import StackCompiler.Proofs.Import.Cycle
import StackCompiler.Proofs.Import.Initialisers
import StackCompiler.Proofs.Import.Steps
import StackCompiler.Proofs.Import.Lowering
import StackCompiler.Proofs.Import.Identifiers
import StackCompiler.Proofs.Import.Entry
import StackCompiler.Proofs.Import.References
import StackCompiler.Proofs.Declaration.Reordering
import StackCompiler.Proofs.Declaration.Document
import StackCompiler.Proofs.Rust.Meaning
import StackCompiler.Proofs.Import.Meaning
import StackCompiler.Proofs.Import.Representation
import StackCompiler.Proofs.Declaration.Reading
import StackCompiler.Proofs.Value.Changes
import StackCompiler.Proofs.Value.Walk
import StackCompiler.Proofs.Declaration.Matching
import StackCompiler.Proofs.Declaration.Filling
import StackCompiler.Proofs.Rust.Identifier
import StackCompiler.Proofs.Import.Progress
import StackCompiler.Proofs.Import.Heading
import StackCompiler.Proofs.Import.Generation
import StackCompiler.Proofs.Rust.Literal
import StackCompiler.Proofs.Rust.ExprText
import StackCompiler.Proofs.Rust.SourceLines
import StackCompiler.Proofs.Import.Notes
import StackCompiler.Proofs.Declaration.Visits
import StackCompiler.Proofs.Declaration.Resolution
import StackCompiler.Proofs.Declaration.Forwarding
import StackCompiler.Proofs.Import.BrokenEdges
import StackCompiler.Proofs.Import.Parts
import StackCompiler.Proofs.Value.CallChain
import StackCompiler.Proofs.Value.Decoder
import StackCompiler.Proofs.Rust.LegalName
import StackCompiler.Proofs.Import.Objects
import StackCompiler.Proofs.Import.FieldNames
import StackCompiler.Proofs.Import.PartNames
import StackCompiler.Proofs.Value.Paths
import StackCompiler.Proofs.Value.Visits
import StackCompiler.Proofs.Template.References
import StackCompiler.Proofs.Numeral
import StackCompiler.Proofs.Rust.JsonUse
import StackCompiler.Proofs.Import.TypePaths
import StackCompiler.Proofs.Import.SourceFiles
import StackCompiler.Proofs.Rust.Tokens
import StackCompiler.Proofs.Rust.Operands
import StackCompiler.Proofs.Rust.TokenLayout
import StackCompiler.Proofs.Registry.Reversal
import StackCompiler.Proofs.FieldPath
import StackCompiler.Proofs.Number.Neighbourhood
import StackCompiler.Proofs.Number.Shortest
import StackCompiler.Proofs.Number.Text
import StackCompiler.Proofs.Yaml.Keys
import StackCompiler.Proofs.Text.Search
import StackCompiler.Proofs.Template.SourceText
import StackCompiler.Proofs.Template.Placeholders
import StackCompiler.Proofs.Import.EntryNames
