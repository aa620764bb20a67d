import SmlSchema.Code.Basic
import SmlSchema.Code.Body
import SmlSchema.Code.DataType
import SmlSchema.Code.Element
import SmlSchema.Code.Entity
import SmlSchema.Code.Enum
import SmlSchema.Code.Field
import SmlSchema.Code.Generation
import SmlSchema.Code.Identifier
import SmlSchema.Code.Literal
import SmlSchema.Code.Printer
import SmlSchema.Code.Struct
import SmlSchema.CommandLine.Arguments
import SmlSchema.CommandLine.Reader
import SmlSchema.CommandLine.Run
import SmlSchema.Compilation
import SmlSchema.Computation
import SmlSchema.Console
import SmlSchema.Document.Attribute
import SmlSchema.Document.Basic
import SmlSchema.Document.Element
import SmlSchema.Document.Printer
import SmlSchema.Document.Reader
import SmlSchema.Document.Violation
import SmlSchema.File.Name
import SmlSchema.File.System
import SmlSchema.Graph.Command
import SmlSchema.Line.Reader
import SmlSchema.Line.Token
import SmlSchema.Main
import SmlSchema.Names
import SmlSchema.Predefined
import SmlSchema.Proofs.Attempt
import SmlSchema.Proofs.Code.Blocks
import SmlSchema.Proofs.Code.Bounds
import SmlSchema.Proofs.Code.Declarations
import SmlSchema.Proofs.Code.Declared
import SmlSchema.Proofs.Code.Entries
import SmlSchema.Proofs.Code.Enumerations
import SmlSchema.Proofs.Code.Execution
import SmlSchema.Proofs.Code.Generation
import SmlSchema.Proofs.Code.Hiding
import SmlSchema.Proofs.Code.Identifiers
import SmlSchema.Proofs.Code.Literals
import SmlSchema.Proofs.Code.Loaders
import SmlSchema.Proofs.Code.Logic
import SmlSchema.Proofs.Code.Printing
import SmlSchema.Proofs.Code.Readers
import SmlSchema.Proofs.Code.Statements
import SmlSchema.Proofs.Code.Totality
import SmlSchema.Proofs.Code.WellTyped
import SmlSchema.Proofs.CommandLine.Changes
import SmlSchema.Proofs.Document.Origin
import SmlSchema.Proofs.Document.Reading
import SmlSchema.Proofs.Document.Rearrangement
import SmlSchema.Proofs.Document.RoundTrip
import SmlSchema.Proofs.Document.Rows
import SmlSchema.Proofs.File.Tree
import SmlSchema.Proofs.Graph.Arrays
import SmlSchema.Proofs.Graph.Simulation
import SmlSchema.Proofs.Line.Grammar
import SmlSchema.Proofs.Line.LineEnds
import SmlSchema.Proofs.Line.Quotes
import SmlSchema.Proofs.NameCalls
import SmlSchema.Proofs.Names
import SmlSchema.Proofs.Scalar.Digits
import SmlSchema.Proofs.Schema.Atomicity
import SmlSchema.Proofs.Schema.Build
import SmlSchema.Proofs.Schema.Conformance
import SmlSchema.Proofs.Schema.Consistency
import SmlSchema.Proofs.Schema.Effects
import SmlSchema.Proofs.Schema.Failures
import SmlSchema.Proofs.Schema.Legibility
import SmlSchema.Proofs.Schema.Levels
import SmlSchema.Proofs.Schema.Loading
import SmlSchema.Proofs.Schema.Rearrangement
import SmlSchema.Proofs.Schema.References
import SmlSchema.Proofs.Schema.RoundTrip
import SmlSchema.Proofs.Schema.Scoping
import SmlSchema.Proofs.Schema.TypeText
import SmlSchema.Proofs.Schema.WellFormed
import SmlSchema.Proofs.Text.Identifier
import SmlSchema.Scalar.Base64
import SmlSchema.Scalar.Basic
import SmlSchema.Scalar.Binary64
import SmlSchema.Scalar.Calendar
import SmlSchema.Scalar.CalendarReader
import SmlSchema.Scalar.Decimal
import SmlSchema.Scalar.Digits
import SmlSchema.Scalar.FreeNumber
import SmlSchema.Scalar.Shortest
import SmlSchema.Schema.Basic
import SmlSchema.Schema.Build
import SmlSchema.Schema.Command
import SmlSchema.Schema.Error
import SmlSchema.Schema.Loader
import SmlSchema.Schema.Occurrence
import SmlSchema.Schema.Place
import SmlSchema.Schema.Printer
import SmlSchema.Schema.TypeText
import SmlSchema.Text.Case
import SmlSchema.Text.Case.Table
import SmlSchema.Text.Character
import SmlSchema.Text.Identifier
import SmlSchema.Text.Lines
import SmlSchema.Text.Printable
import SmlSchema.Text.Quoted
import SmlSchema.Text.Utf8
