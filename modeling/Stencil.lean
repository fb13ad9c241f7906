import Stencil.Check
import Stencil.Config
import Stencil.Data
import Stencil.Data.Json
import Stencil.Data.Yaml
import Stencil.Decimal.Layout
import Stencil.Decimal.Reader
import Stencil.Decimal.Shortest
import Stencil.Directive
import Stencil.Files
import Stencil.Json.Lexeme
import Stencil.Json.Reader
import Stencil.Live
import Stencil.Node
import Stencil.Output
import Stencil.Path
import Stencil.Proofs.Absence
import Stencil.Proofs.Agreement
import Stencil.Proofs.Alternatives
import Stencil.Proofs.Balance
import Stencil.Proofs.ByteOrder
import Stencil.Proofs.Completion
import Stencil.Proofs.Concatenation
import Stencil.Proofs.Conformance
import Stencil.Proofs.Counterparts
import Stencil.Proofs.Cutting
import Stencil.Proofs.DeclaredPart
import Stencil.Proofs.Defects
import Stencil.Proofs.Edits
import Stencil.Proofs.Escaping
import Stencil.Proofs.Faults
import Stencil.Proofs.Flattening
import Stencil.Proofs.Following
import Stencil.Proofs.Formats
import Stencil.Proofs.Freshness
import Stencil.Proofs.Grammar
import Stencil.Proofs.Hops
import Stencil.Proofs.Loading
import Stencil.Proofs.Lookup
import Stencil.Proofs.Loops
import Stencil.Proofs.Marks
import Stencil.Proofs.Meaning
import Stencil.Proofs.Occurrences
import Stencil.Proofs.Parsing
import Stencil.Proofs.Parts
import Stencil.Proofs.PathGrammar
import Stencil.Proofs.Paths
import Stencil.Proofs.Places
import Stencil.Proofs.Printing
import Stencil.Proofs.Provenance
import Stencil.Proofs.Referents
import Stencil.Proofs.Registrations
import Stencil.Proofs.Renaming
import Stencil.Proofs.Rendering
import Stencil.Proofs.Shapes
import Stencil.Proofs.Spans
import Stencil.Proofs.Spelling
import Stencil.Proofs.Suggestions
import Stencil.Proofs.Surroundings
import Stencil.Proofs.Trail
import Stencil.Proofs.Translation
import Stencil.Proofs.Trimming
import Stencil.Proofs.Truncation
import Stencil.Proofs.Typing
import Stencil.Proofs.Unescaping
import Stencil.Proofs.Verdicts
import Stencil.Proofs.Visits
import Stencil.Proofs.Widening
import Stencil.Proofs.Writers
import Stencil.Proofs.Writing
import Stencil.Registry
import Stencil.Render
import Stencil.Schema
import Stencil.Schema.Shape
import Stencil.Schema.Yaml
import Stencil.Scope
import Stencil.Stack
import Stencil.Template
import Stencil.Text.Basic
import Stencil.Text.Identifier
import Stencil.Text.Quoted
import Stencil.Token
import Stencil.Token.Piece
import Stencil.Tree
import Stencil.TypeError
import Stencil.Yaml.Document
import Stencil.Yaml.Document.Content
import Stencil.Yaml.Lexeme
import Stencil.Yaml.Lexeme.Reader
import Stencil.Yaml.Node
import Stencil.Yaml.Node.Reader
import Stencil.Yaml.Progress
import Stencil.Yaml.Reader
import Stencil.Yaml.Scalar.Block
import Stencil.Yaml.Scalar.Flow
import Stencil.Yaml.Scalar.Resolution
import Stencil.Yaml.Tag
