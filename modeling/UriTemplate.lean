import UriTemplate.Calendar
import UriTemplate.CommandLine
import UriTemplate.Context
import UriTemplate.Datum
import UriTemplate.Expansion
import UriTemplate.Json.Basic
import UriTemplate.Json.Number
import UriTemplate.Json.Print
import UriTemplate.Json.Read
import UriTemplate.Json.Token
import UriTemplate.Main
import UriTemplate.Number.Binary
import UriTemplate.Number.Decimal
import UriTemplate.Number.Notation
import UriTemplate.Number.Power
import UriTemplate.Number.Shortest
import UriTemplate.Percent
import UriTemplate.Proofs.CommandLine.Assignments
import UriTemplate.Proofs.CommandLine.Expanding
import UriTemplate.Proofs.CommandLine.Showing
import UriTemplate.Proofs.Context.Canonical
import UriTemplate.Proofs.Context.Documents
import UriTemplate.Proofs.Context.Overlay
import UriTemplate.Proofs.Context.Overrides
import UriTemplate.Proofs.Except
import UriTemplate.Proofs.Expansion.Agreement
import UriTemplate.Proofs.Expansion.Braces
import UriTemplate.Proofs.Expansion.Delimiters
import UriTemplate.Proofs.Expansion.Failures
import UriTemplate.Proofs.Expansion.Legality
import UriTemplate.Proofs.Expansion.Limits
import UriTemplate.Proofs.Expansion.Pieces
import UriTemplate.Proofs.Expansion.Sections
import UriTemplate.Proofs.Expansion.Splitting
import UriTemplate.Proofs.Expansion.Streaming
import UriTemplate.Proofs.Expansion.Transparency
import UriTemplate.Proofs.Json.Documents
import UriTemplate.Proofs.Json.Finiteness
import UriTemplate.Proofs.Json.Meaning
import UriTemplate.Proofs.Json.Numbers
import UriTemplate.Proofs.Json.RoundTrip
import UriTemplate.Proofs.Json.Strings
import UriTemplate.Proofs.Json.Tokens
import UriTemplate.Proofs.Percent.Encoding
import UriTemplate.Proofs.Percent.FormDecoding
import UriTemplate.Proofs.Percent.Image
import UriTemplate.Proofs.Percent.Reserved
import UriTemplate.Proofs.Percent.Units
import UriTemplate.Proofs.Resolution.Classification
import UriTemplate.Proofs.Resolution.Lookup
import UriTemplate.Proofs.Resolution.Members
import UriTemplate.Proofs.Resolution.Records
import UriTemplate.Proofs.Template.Concatenation
import UriTemplate.Proofs.Template.Finality
import UriTemplate.Proofs.Template.Grammar
import UriTemplate.Proofs.Template.Names
import UriTemplate.Proofs.Template.NormalForm
import UriTemplate.Proofs.Template.Reading
import UriTemplate.Proofs.Template.Refusal
import UriTemplate.Proofs.Template.Rendering
import UriTemplate.Proofs.Template.RoundTrip
import UriTemplate.Proofs.Text.Join
import UriTemplate.Proofs.Text.Numeral
import UriTemplate.Proofs.Uri.Legal
import UriTemplate.Proofs.Value.Canonical
import UriTemplate.Proofs.Value.Entries
import UriTemplate.Proofs.Value.Putting
import UriTemplate.Proofs.Value.Settling
import UriTemplate.Proofs.Yaml.Documents
import UriTemplate.Proofs.Yaml.Leaves
import UriTemplate.Proofs.Yaml.Order
import UriTemplate.Resolution
import UriTemplate.Scalar
import UriTemplate.Session
import UriTemplate.Template.Basic
import UriTemplate.Template.Operator
import UriTemplate.Template.Read
import UriTemplate.Template.Render
import UriTemplate.Template.SyntaxError
import UriTemplate.Text
import UriTemplate.Text.Blank
import UriTemplate.Uuid
import UriTemplate.Value
import UriTemplate.Yaml.Content
import UriTemplate.Yaml.Cursor
import UriTemplate.Yaml.Node
import UriTemplate.Yaml.Reference
import UriTemplate.Yaml.Scalar
import UriTemplate.Yaml.Tag
import UriTemplate.Yaml.Token
import UriTemplate.Proofs.Number.Integers
import UriTemplate.Proofs.Number.Literals
import UriTemplate.Proofs.Number.Decimals
import UriTemplate.Proofs.Calendar.Clock
import UriTemplate.Proofs.Calendar.Offset
import UriTemplate.Proofs.Resolution.Alike
import UriTemplate.Proofs.Json.HostData
import UriTemplate.Proofs.Number.Exact
import UriTemplate.Proofs.Number.Gaps
import UriTemplate.Proofs.Number.Rounding
import UriTemplate.Proofs.Number.Shortest
import UriTemplate.Proofs.Number.Notation
import UriTemplate.Proofs.Number.Floats
import UriTemplate.Proofs.Number.Widths
