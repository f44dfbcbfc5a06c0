import DocumentMath.Main
import DocumentMath.Document.InPlace
import DocumentMath.Render.Prepared
import DocumentMath.Proofs.Inline.Leftmost
import DocumentMath.Proofs.Inline.Splice
import DocumentMath.Proofs.Inline.Brackets
import DocumentMath.Proofs.Pass.Account
import DocumentMath.Proofs.Pass.Alone
import DocumentMath.Proofs.Pass.FixedPoint
import DocumentMath.Proofs.Path.Components
import DocumentMath.Proofs.Path.Normal
import DocumentMath.Proofs.Path.NormalForm
import DocumentMath.Proofs.Path.Relative
import DocumentMath.Proofs.Path.Location
import DocumentMath.Proofs.Document.Scope
import DocumentMath.Proofs.Document.Collected
import DocumentMath.Proofs.Pass.Recording
import DocumentMath.Proofs.Pass.Requests
import DocumentMath.Proofs.Pass.Files
import DocumentMath.Proofs.AsciiMath.Nesting
import DocumentMath.Proofs.AsciiMath.Separation
import DocumentMath.Proofs.Document.Decoding
import DocumentMath.Proofs.Document.RoundTrip
import DocumentMath.Proofs.Files.Steps
import DocumentMath.Proofs.Files.Directories
import DocumentMath.Proofs.Files.Written
import DocumentMath.Proofs.Render.Storing
import DocumentMath.Proofs.Pass.Answers
import DocumentMath.Proofs.Pass.Effect
import DocumentMath.Proofs.Render.Shared
import DocumentMath.Proofs.Pass.EmptyInput
import DocumentMath.Proofs.Pass.Form
import DocumentMath.Proofs.Inline.Escaping
import DocumentMath.Proofs.Pass.Searched
import DocumentMath.Proofs.Pass.DefaultNotation
import DocumentMath.Proofs.Render.Reached
import DocumentMath.Proofs.Inline.Protecting
import DocumentMath.Proofs.AsciiMath.Height
import DocumentMath.Proofs.AsciiMath.Operands
import DocumentMath.Proofs.AsciiMath.Pairing
import DocumentMath.Proofs.AsciiMath.Bracketed
import DocumentMath.Proofs.Document.Apart
import DocumentMath.Proofs.Document.InPlace
import DocumentMath.Proofs.Document.Counted
import DocumentMath.Proofs.Image.Header
import DocumentMath.Proofs.Pass.Alike
import DocumentMath.Proofs.Substitution.References
import DocumentMath.Proofs.Substitution.Replacements
import DocumentMath.Proofs.Substitution.Lists
import DocumentMath.Proofs.Substitution.Reading
import DocumentMath.Proofs.Pass.Titles
import DocumentMath.Proofs.Pass.Embedded
