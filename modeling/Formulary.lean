import Formulary.Code.Context
import Formulary.Code.Emission
import Formulary.Code.PowerCall
import Formulary.Code.Render
import Formulary.Code.Session
import Formulary.CommandLine.Arguments
import Formulary.CommandLine.Command
import Formulary.CommandLine.PlainText
import Formulary.CommandLine.Run
import Formulary.Decimal.Binary
import Formulary.Decimal.Shortest
import Formulary.Element.Basic
import Formulary.Element.Codec
import Formulary.Formula.Fault
import Formulary.Formula.Fold
import Formulary.Formula.Function
import Formulary.Formula.Group
import Formulary.Formula.Parse
import Formulary.Formula.Strip
import Formulary.Formula.Validity
import Formulary.Main
import Formulary.Markup.Attribute
import Formulary.Markup.Declaration
import Formulary.Markup.Doctype
import Formulary.Markup.Encoding
import Formulary.Markup.Fault
import Formulary.Markup.Grammar
import Formulary.Markup.Name
import Formulary.Markup.Namespace
import Formulary.Markup.Reader
import Formulary.Markup.Reference
import Formulary.Markup.Tree
import Formulary.Markup.Writer
import Formulary.Node.Basic
import Formulary.Node.Children
import Formulary.Node.Name
import Formulary.Numeral
import Formulary.Options.Basic
import Formulary.Options.File
import Formulary.Options.Source
import Formulary.Proofs.Parsing
import Formulary.Symbol
import Formulary.Text.Alphanumeric
import Formulary.Text.Base64
import Formulary.Text.BrokenBytes
import Formulary.Text.Cased
import Formulary.Text.CodePage
import Formulary.Text.Digit
import Formulary.Text.Encoding
import Formulary.Text.EncodingName
import Formulary.Text.LineEnd
import Formulary.Text.Lowercase
import Formulary.Text.Number
import Formulary.Text.Quoted
import Formulary.Text.Ranges
import Formulary.Text.Shapeless
import Formulary.Text.Space
import Formulary.Token
import Formulary.Yaml.Document
import Formulary.Yaml.Fault
import Formulary.Yaml.Meaning
import Formulary.Yaml.Node
import Formulary.Yaml.Property
import Formulary.Yaml.Scalar
import Formulary.Yaml.ScalarText
import Formulary.Yaml.Scan
import Formulary.Yaml.Tag
import Formulary.Yaml.Timestamp
import Formulary.Yaml.Token
import Formulary.Yaml.Value
import Formulary.Proofs.Faults
import Formulary.Proofs.Conservation
import Formulary.Proofs.Emission
import Formulary.Proofs.Validity
import Formulary.Proofs.Arithmetic.Formula
import Formulary.Proofs.Arithmetic.Code
import Formulary.Proofs.Spelling
import Formulary.Proofs.Arithmetic.Meaning
import Formulary.Proofs.Passes
import Formulary.Proofs.Printing
import Formulary.Proofs.Composition
import Formulary.Proofs.Shape
import Formulary.Proofs.PowerText
import Formulary.Proofs.Rendering
import Formulary.Proofs.Rescan
import Formulary.Proofs.Line
import Formulary.Proofs.Operands
import Formulary.Proofs.NormalForm
import Formulary.Proofs.Balance
import Formulary.Proofs.Markup.Rereading
import Formulary.Proofs.Markup.Documents
import Formulary.Proofs.Markup.Stability
import Formulary.Proofs.Markup.Exchange
import Formulary.Proofs.Markup.Elements
import Formulary.Proofs.Session
import Formulary.Proofs.Neighbours
import Formulary.Proofs.Names
import Formulary.Proofs.Functions
import Formulary.Proofs.Enclosure
import Formulary.Proofs.Products
import Formulary.Proofs.ProductCode
import Formulary.Proofs.Arithmetic.Prefix
import Formulary.Proofs.Arithmetic.Cursor
import Formulary.Proofs.Arithmetic.Stripping
import Formulary.Proofs.Markup.ElementFaults
import Formulary.Proofs.EmissionFaults
import Formulary.Proofs.Guards
import Formulary.Proofs.Arithmetic.Fractions
import Formulary.Proofs.Criterion
import Formulary.Proofs.Unwrapping
import Formulary.Proofs.FoldOutcome
import Formulary.Proofs.PassCount
import Formulary.Proofs.PowerBrackets
import Formulary.Proofs.Unclosed
import Formulary.Proofs.Scanning
