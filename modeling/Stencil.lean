import Stencil.Argument
import Stencil.Calendar
import Stencil.Coercion
import Stencil.Command.Arguments
import Stencil.Command.Console
import Stencil.Command.Program
import Stencil.Command.Run
import Stencil.Document
import Stencil.Engine
import Stencil.File.Loader
import Stencil.File.Path
import Stencil.File.Tree
import Stencil.Json
import Stencil.Library
import Stencil.Log
import Stencil.Main
import Stencil.Number.Decimal
import Stencil.Number.Double.Basic
import Stencil.Number.Double.Text
import Stencil.Number.Integer
import Stencil.Output
import Stencil.Pair
import Stencil.Placeholder
import Stencil.Proofs.Itemwise
import Stencil.Proofs.Placeholder.Scan
import Stencil.Scope
import Stencil.Selector
import Stencil.Session
import Stencil.Shape
import Stencil.Store
import Stencil.Template.Fill
import Stencil.Template.Kind
import Stencil.Text.Blank
import Stencil.Text.Digit
import Stencil.Text.Hex
import Stencil.Text.Line
import Stencil.Text.Printable
import Stencil.Text.Quoted
import Stencil.Text.Utf8
import Stencil.Traced
import Stencil.Validation
import Stencil.Value
import Stencil.Value.Key
import Stencil.Value.Part
import Stencil.Value.Quoted
import Stencil.Yaml.Base64
import Stencil.Yaml.Character
import Stencil.Yaml.Fault
import Stencil.Yaml.Flaw
import Stencil.Yaml.Grammar
import Stencil.Yaml.Meaning
import Stencil.Yaml.Pen
import Stencil.Yaml.Plain
import Stencil.Yaml.Read
import Stencil.Yaml.Render
import Stencil.Yaml.Represent
import Stencil.Yaml.Scalar.Block
import Stencil.Yaml.Scalar.Gap
import Stencil.Yaml.Scalar.Quoted
import Stencil.Yaml.Scalar.Unquoted
import Stencil.Yaml.Sheet
import Stencil.Yaml.Style
import Stencil.Yaml.Tag
import Stencil.Yaml.Timestamp
import Stencil.Yaml.Token.Basic
import Stencil.Yaml.Token.Cursor
import Stencil.Yaml.Token.Name
import Stencil.Yaml.Token.Stream
import Stencil.Proofs.Template.Text
import Stencil.Proofs.Engine.Operation
import Stencil.Proofs.Engine.Entrywise
import Stencil.Proofs.Template.Calls
import Stencil.Proofs.Engine.Reads
import Stencil.Proofs.Coercion.Typed
import Stencil.Proofs.Template.Cells
import Stencil.Proofs.Engine.Typed
import Stencil.Proofs.Template.Structure
import Stencil.Proofs.Engine.Structure
import Stencil.Proofs.Engine.Nulls
import Stencil.Proofs.Template.Agreement
import Stencil.Proofs.Engine.Agreement
import Stencil.Proofs.Engine.Noninterference
import Stencil.Proofs.Engine.Default
import Stencil.Proofs.Engine.Unresolved
import Stencil.Proofs.Number.Overflow
import Stencil.Proofs.Value.Shown
import Stencil.Proofs.Coercion.Failure
import Stencil.Proofs.Document.Update
import Stencil.Proofs.Scope.Layers
import Stencil.Proofs.File.Variables
import Stencil.Proofs.Command.Stages
import Stencil.Proofs.Command.Store
import Stencil.Proofs.Command.Precedence
import Stencil.Proofs.File.Save
import Stencil.Proofs.Command.Output
import Stencil.Proofs.Document.Removal
import Stencil.Proofs.Session.History
import Stencil.Proofs.Session.Reference
import Stencil.Proofs.Command.Taking
import Stencil.Proofs.Command.Logging
import Stencil.Proofs.Engine.Factor
import Stencil.Proofs.Command.TextShape
import Stencil.Proofs.Yaml.Reading
import Stencil.Proofs.Yaml.Scanning
import Stencil.Proofs.Yaml.Fetching
import Stencil.Proofs.Yaml.Flow
import Stencil.Proofs.Yaml.Escape
import Stencil.Proofs.Json.Text
import Stencil.Proofs.Number.Digits
import Stencil.Proofs.Number.Rounding
import Stencil.Proofs.Number.Shortest
import Stencil.Proofs.Number.Pointed
import Stencil.Proofs.Yaml.Meaning
import Stencil.Proofs.Yaml.Unquoted
import Stencil.Proofs.Text.Utf8
import Stencil.Proofs.Json.Scan
import Stencil.Proofs.Yaml.Kept
import Stencil.Proofs.Json.Legible
import Stencil.Proofs.File.Restored
import Stencil.Proofs.Yaml.Pen
import Stencil.Proofs.Yaml.Spelling
import Stencil.Proofs.Yaml.Scalar.Plain
import Stencil.Proofs.Yaml.Scalar.Single
import Stencil.Proofs.Yaml.Scalar.Double
import Stencil.Proofs.Yaml.Word
import Stencil.Proofs.Yaml.Scalar.Styled
import Stencil.Proofs.Yaml.Block
import Stencil.Proofs.Yaml.Content
import Stencil.Proofs.Yaml.Rendered
import Stencil.Proofs.Yaml.Readable
import Stencil.Proofs.Yaml.Whole
import Stencil.Proofs.Number.Integral
import Stencil.Proofs.Number.Written
import Stencil.Proofs.Coercion.Integral
import Stencil.Proofs.Coercion.RoundTrip
import Stencil.Proofs.Yaml.Hexadecimal
import Stencil.Proofs.File.Calls
import Stencil.Proofs.Yaml.Fault.Text
import Stencil.Proofs.Yaml.Fault.Token
import Stencil.Proofs.Yaml.Fault.Grammar
import Stencil.Proofs.Value.Writable
import Stencil.Proofs.Yaml.Parts
import Stencil.Proofs.File.Refusal
import Stencil.Proofs.Command.Refusal
import Stencil.Proofs.Placeholder.Views
import Stencil.Proofs.Pair.Gathering
import Stencil.Proofs.Yaml.Resolution
import Stencil.Proofs.Engine.Inherited
import Stencil.Proofs.Command.Rendered
import Stencil.Proofs.Placeholder.Concatenation
import Stencil.Proofs.Template.Concatenation
