import CadenceEntry.CommandLine.Arguments
import CadenceEntry.CommandLine.Option
import CadenceEntry.CommandLine.Run
import CadenceEntry.CommandLine.Usage
import CadenceEntry.Configuration.Basic
import CadenceEntry.Configuration.File
import CadenceEntry.Configuration.Loader
import CadenceEntry.Datum
import CadenceEntry.Descriptor.Basic
import CadenceEntry.Descriptor.Document
import CadenceEntry.Descriptor.Outline
import CadenceEntry.EntryPoint
import CadenceEntry.Files
import CadenceEntry.Grammar.Automaton
import CadenceEntry.Grammar.Derivation
import CadenceEntry.Grammar.Production
import CadenceEntry.Grammar.Row
import CadenceEntry.Grammar.Symbol
import CadenceEntry.Grammar.Table
import CadenceEntry.Interaction.Basic
import CadenceEntry.Interaction.Document
import CadenceEntry.Interaction.Outline
import CadenceEntry.Json.Basic
import CadenceEntry.Json.Reader
import CadenceEntry.Json.Writer
import CadenceEntry.Kind.Basic
import CadenceEntry.Kind.Table
import CadenceEntry.Log
import CadenceEntry.Main
import CadenceEntry.Number.Binary64
import CadenceEntry.Number.FloatText
import CadenceEntry.Number.IntegerLiteral
import CadenceEntry.Number.IntegerText
import CadenceEntry.Response
import CadenceEntry.Source.Cursor
import CadenceEntry.Source.Derive
import CadenceEntry.Source.Input
import CadenceEntry.Source.NextWord
import CadenceEntry.Source.Position
import CadenceEntry.Source.SyntaxError
import CadenceEntry.Source.WordClass
import CadenceEntry.Syntax.Declaration
import CadenceEntry.Syntax.Document
import CadenceEntry.Syntax.Meaning
import CadenceEntry.Syntax.Parse
import CadenceEntry.Syntax.Type
import CadenceEntry.Text.Base64
import CadenceEntry.Text.Blank
import CadenceEntry.Text.DecimalDigit
import CadenceEntry.Text.Newline
import CadenceEntry.Text.Printable
import CadenceEntry.Text.Quoted
import CadenceEntry.Text.Uppercase
import CadenceEntry.Text.Utf8
import CadenceEntry.Yaml.Cursor
import CadenceEntry.Yaml.Document
import CadenceEntry.Yaml.Fault
import CadenceEntry.Yaml.Loader
import CadenceEntry.Yaml.Node
import CadenceEntry.Yaml.Property
import CadenceEntry.Yaml.Scalar
import CadenceEntry.Yaml.Scanner
import CadenceEntry.Yaml.Schema
import CadenceEntry.Yaml.Timestamp
import CadenceEntry.Yaml.Token
import CadenceEntry.Yaml.Value
import CadenceEntry.Proofs.Grammar.Closure
import CadenceEntry.Proofs.Grammar.Reduction
import CadenceEntry.Proofs.Grammar.Firsts
import CadenceEntry.Proofs.Source.Reading
import CadenceEntry.Proofs.Source.WordClass
import CadenceEntry.Proofs.Source.Piece
import CadenceEntry.Proofs.Source.Writing
import CadenceEntry.Proofs.Syntax.Evaluation
import CadenceEntry.Proofs.Syntax.Words
import CadenceEntry.Proofs.Source.Covering
import CadenceEntry.Proofs.Syntax.Kept
import CadenceEntry.Proofs.Syntax.Soundness
import CadenceEntry.Proofs.TypeText.Characters
import CadenceEntry.Proofs.TypeText.Grouping
import CadenceEntry.Proofs.TypeText.Keywords
import CadenceEntry.Proofs.TypeText.Ungrouping
import CadenceEntry.Proofs.TypeText.Layout
import CadenceEntry.Proofs.TypeText.Parentheses
import CadenceEntry.Proofs.TypeText.RoundTrip
import CadenceEntry.Proofs.Body.Scan
import CadenceEntry.Proofs.Body.Words
import CadenceEntry.Proofs.Body.Nesting
import CadenceEntry.Proofs.Body.Extent
import CadenceEntry.Proofs.Source.Alike
import CadenceEntry.Proofs.Body.Closing
import CadenceEntry.Proofs.Body.Header
import CadenceEntry.Proofs.Body.FirstBody
import CadenceEntry.Proofs.Body.Program
import CadenceEntry.Proofs.Source.Moving
import CadenceEntry.Proofs.Syntax.Moved
import CadenceEntry.Proofs.Source.Replacing
import CadenceEntry.Proofs.Source.Shifting
import CadenceEntry.Proofs.Body.Reading
import CadenceEntry.Proofs.Interaction.Unplaced
import CadenceEntry.Proofs.Syntax.Blocks
import CadenceEntry.Proofs.Syntax.Places
import CadenceEntry.Proofs.Body.Replacement
import CadenceEntry.Proofs.Body.Opacity
import CadenceEntry.Proofs.Source.Following
import CadenceEntry.Proofs.Program.Concatenation
import CadenceEntry.Proofs.Parameters.Agreement
import CadenceEntry.Proofs.Layout.Boundary
import CadenceEntry.Proofs.Layout.Insertion
import CadenceEntry.Proofs.Layout.Invariance
import CadenceEntry.Proofs.Nodes.Tree
import CadenceEntry.Proofs.Nodes.Standing
import CadenceEntry.Proofs.Nodes.Placement
import CadenceEntry.Proofs.Source.Spacing
import CadenceEntry.Proofs.Syntax.Completeness
import CadenceEntry.Proofs.Grammar.Corners
import CadenceEntry.Proofs.Grammar.Viable
import CadenceEntry.Proofs.Source.Completing
import CadenceEntry.Proofs.Errors.FirstWrongPlace
import CadenceEntry.Proofs.Source.Strict
import CadenceEntry.Proofs.Syntax.Building
import CadenceEntry.Proofs.Response.Assembling
import CadenceEntry.Proofs.Response.OneResponse
import CadenceEntry.Proofs.Json.Spelling
import CadenceEntry.Proofs.Json.Writing
import CadenceEntry.Proofs.Json.Written
import CadenceEntry.Proofs.Json.Documents
import CadenceEntry.Proofs.CommandLine.Output
import CadenceEntry.Proofs.TypeText.SourceWords
import CadenceEntry.Proofs.Source.FirstLine
import CadenceEntry.Proofs.CommandLine.Answering
import CadenceEntry.Proofs.CommandLine.Logging
import CadenceEntry.Proofs.CommandLine.Ending
import CadenceEntry.Proofs.Grammar.Taking
import CadenceEntry.Proofs.Errors.Coming
import CadenceEntry.Proofs.Errors.Expected
import CadenceEntry.Proofs.ResultType.Words
import CadenceEntry.Proofs.ResultType.Brackets
import CadenceEntry.Proofs.ResultType.Mirror
import CadenceEntry.Proofs.ResultType.Reading
import CadenceEntry.Proofs.ResultType.Restrictions
import CadenceEntry.Proofs.ResultType.Agreement
import CadenceEntry.Proofs.TypeText.WellFormed
import CadenceEntry.Proofs.TypeText.Nesting
import CadenceEntry.Proofs.Number.LiteralValue
import CadenceEntry.Proofs.Kind.Construction
import CadenceEntry.Proofs.Descriptor.Kinds
import CadenceEntry.Proofs.Descriptor.Ends
import CadenceEntry.Proofs.Descriptor.RawType
import CadenceEntry.Proofs.Interaction.Selection
import CadenceEntry.Proofs.Syntax.Filling
import CadenceEntry.Proofs.Syntax.Names
import CadenceEntry.Proofs.Naming.Slots
import CadenceEntry.Proofs.Naming.Before
import CadenceEntry.Proofs.Naming.Template
import CadenceEntry.Proofs.Naming.Replacement
import CadenceEntry.Proofs.Naming.Renaming
import CadenceEntry.Proofs.Number.LiteralSpelling
import CadenceEntry.Proofs.Errors.InvalidInteger
import CadenceEntry.Proofs.Descriptor.Data
import CadenceEntry.Proofs.Descriptor.Outline
import CadenceEntry.Proofs.TypeText.OneLine
import CadenceEntry.Proofs.Interaction.ParameterTypes
import CadenceEntry.Proofs.Interaction.Outline
import CadenceEntry.Proofs.Kind.Revision
import CadenceEntry.Proofs.Response.Revision
import CadenceEntry.Proofs.Text.Decoding
import CadenceEntry.Proofs.Text.Encoding
import CadenceEntry.Proofs.Source.WholeLine
import CadenceEntry.Proofs.Source.LineFeed
import CadenceEntry.Proofs.CommandLine.SourceLine
import CadenceEntry.Proofs.Configuration.Options
import CadenceEntry.Proofs.Configuration.Decoding
import CadenceEntry.Proofs.Configuration.Loading
import CadenceEntry.Proofs.Configuration.NormalForm
