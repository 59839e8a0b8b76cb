import Stencil.Diagnostic
import Stencil.Json.Decode
import Stencil.Json.Encode
import Stencil.Json.Token
import Stencil.Log
import Stencil.Marker.Basic
import Stencil.Marker.Lexeme
import Stencil.Marker.Scan
import Stencil.Number.Binary64
import Stencil.Number.Decimal
import Stencil.Number.Layout
import Stencil.Number.Numeral
import Stencil.Number.Quantity
import Stencil.Number.Shortest
import Stencil.Path.Dotted
import Stencil.Path.Language
import Stencil.Path.Verbatim
import Stencil.Query.Basic
import Stencil.Query.Evaluate
import Stencil.Query.Language
import Stencil.Query.Reader
import Stencil.Query.Slice
import Stencil.Query.Text
import Stencil.Template.Basic
import Stencil.Template.Compile
import Stencil.Template.Render
import Stencil.Text.Blank
import Stencil.Text.Hex
import Stencil.Text.Line
import Stencil.Text.Printable
import Stencil.Text.Quoted
import Stencil.Text.StringLiteral
import Stencil.Unquote
import Stencil.Value.Basic
import Stencil.Value.Same
import Stencil.Value.Text
import Stencil.Proofs.Marker.Grammar
import Stencil.Proofs.Marker.Reader
import Stencil.Proofs.Marker.Run
import Stencil.Proofs.Marker.Meaning
import Stencil.Proofs.Template.Interpreter
import Stencil.Proofs.Marker.Escape
import Stencil.Proofs.Template.Escape
import Stencil.Proofs.Marker.Expressible
import Stencil.Proofs.Marker.Spelling
import Stencil.Proofs.Marker.Enclosed
import Stencil.Proofs.Template.Placement
import Stencil.Proofs.Marker.Closing
import Stencil.Proofs.Template.Parametric
import Stencil.Proofs.Text.Line
import Stencil.Proofs.Diagnostic
import Stencil.Proofs.Json.Literal
import Stencil.Proofs.Template.Pointing
import Stencil.Proofs.Query.Scope
import Stencil.Proofs.Template.Scope
import Stencil.Proofs.Marker.Reading
import Stencil.Proofs.Template.Marked
import Stencil.Proofs.Template.Mirror
import Stencil.Proofs.Marker.Concatenation
import Stencil.Proofs.Path.Finding
import Stencil.Proofs.Template.Concatenation
import Stencil.Proofs.Template.Ending
import Stencil.Proofs.Template.Validity
import Stencil.Proofs.Number.Numeral
import Stencil.Proofs.Template.Section
import Stencil.Proofs.Template.Order
import Stencil.Proofs.Text.Place
import Stencil.Proofs.Number.IntegerText
import Stencil.Proofs.Json.RoundTrip
import Stencil.Proofs.Json.Ascii
import Stencil.Proofs.Template.Interpolation
import Stencil.Proofs.Template.Substitution
import Stencil.Proofs.Template.Identity
import Stencil.Proofs.Template.ReadBack
import Stencil.Proofs.Number.Rounding
import Stencil.Proofs.Number.Overflow
import Stencil.Proofs.Value.Members
import Stencil.Proofs.Value.Text
import Stencil.Proofs.Marker.Cursor
import Stencil.Proofs.Marker.Loop
import Stencil.Proofs.Template.Keys
