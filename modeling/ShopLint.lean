import ShopLint.Area
import ShopLint.Ci
import ShopLint.ClassIndex
import ShopLint.Collection.Classification
import ShopLint.Collection.Selection
import ShopLint.Collection.Walk
import ShopLint.Command.Flag
import ShopLint.Command.Help
import ShopLint.Command.Line
import ShopLint.Command.Scan
import ShopLint.Dict
import ShopLint.Digest
import ShopLint.Dispatch
import ShopLint.Duration
import ShopLint.FileTree
import ShopLint.Finding
import ShopLint.Fingerprint
import ShopLint.Fixer
import ShopLint.Gate.Basic
import ShopLint.Gate.Eval
import ShopLint.Gate.Expr
import ShopLint.Gate.Token
import ShopLint.Gate.Ty
import ShopLint.Gate.Typing
import ShopLint.Gate.Value
import ShopLint.Host
import ShopLint.Instant
import ShopLint.Json.Parser
import ShopLint.Json.Printer
import ShopLint.Json.Quoted
import ShopLint.Json.Value
import ShopLint.Log
import ShopLint.Main
import ShopLint.Module
import ShopLint.Number.Decimal
import ShopLint.Path
import ShopLint.Pattern.Basic
import ShopLint.Pattern.Parser
import ShopLint.Php.ClassName
import ShopLint.Php.Constructor
import ShopLint.Php.Function
import ShopLint.Php.Header
import ShopLint.Php.Lexeme
import ShopLint.Proofs.Anchoring
import ShopLint.Proofs.Area
import ShopLint.Proofs.ClassIndex
import ShopLint.Proofs.ClassIndex.Ancestors
import ShopLint.Proofs.ClassIndex.Consistency
import ShopLint.Proofs.ClassIndex.Order
import ShopLint.Proofs.Collection
import ShopLint.Proofs.Collection.Configurations
import ShopLint.Proofs.Collection.Eligibility
import ShopLint.Proofs.Collection.Linked
import ShopLint.Proofs.Command.Output
import ShopLint.Proofs.Command.Scan
import ShopLint.Proofs.Completion
import ShopLint.Proofs.Dict
import ShopLint.Proofs.Dispatch
import ShopLint.Proofs.Dispatch.Ending
import ShopLint.Proofs.Dispatch.Tally
import ShopLint.Proofs.FileTree
import ShopLint.Proofs.Fingerprint
import ShopLint.Proofs.Fingerprint.Stability
import ShopLint.Proofs.Instant
import ShopLint.Proofs.Isolation
import ShopLint.Proofs.Json.Layout
import ShopLint.Proofs.Json.Numeral
import ShopLint.Proofs.Json.Quoted
import ShopLint.Proofs.Json.Reading
import ShopLint.Proofs.Json.Value
import ShopLint.Proofs.Module.Nearest
import ShopLint.Proofs.Number.Numeral
import ShopLint.Proofs.Path
import ShopLint.Proofs.Path.Clean
import ShopLint.Proofs.Php.ClassName
import ShopLint.Proofs.Php.Constructor.Modifier
import ShopLint.Proofs.Php.Constructor.Parameter
import ShopLint.Proofs.Php.Constructor.Signature
import ShopLint.Proofs.Php.Function
import ShopLint.Proofs.Php.Function.Body
import ShopLint.Proofs.Php.Function.Declaration
import ShopLint.Proofs.Php.Function.Ending
import ShopLint.Proofs.Php.Function.Extent
import ShopLint.Proofs.Php.Header
import ShopLint.Proofs.Php.Header.ClassStatement
import ShopLint.Proofs.Php.Header.Heads
import ShopLint.Proofs.Php.Header.Imports
import ShopLint.Proofs.Php.Header.LeadWord
import ShopLint.Proofs.Php.Header.Statement
import ShopLint.Proofs.Php.Interfaces
import ShopLint.Proofs.Php.Lexeme
import ShopLint.Proofs.Php.Position
import ShopLint.Proofs.Php.Resolution
import ShopLint.Proofs.Php.Settled
import ShopLint.Proofs.Placement
import ShopLint.Proofs.Registry
import ShopLint.Proofs.Registry.Accounting
import ShopLint.Proofs.Relocation
import ShopLint.Proofs.Relocation.Plain
import ShopLint.Proofs.Relocation.Report
import ShopLint.Proofs.Relocation.Rules
import ShopLint.Proofs.Reordered
import ShopLint.Proofs.Report.Agreement
import ShopLint.Proofs.Report.Decoding
import ShopLint.Proofs.Report.Hint
import ShopLint.Proofs.Report.Markup
import ShopLint.Proofs.Report.Merging
import ShopLint.Proofs.Report.Order
import ShopLint.Proofs.Rule.AreaScope
import ShopLint.Proofs.Rule.AroundPlugin
import ShopLint.Proofs.Rule.AroundPlugin.Calls
import ShopLint.Proofs.Rule.CoreInheritance
import ShopLint.Proofs.Rule.LayoutCache
import ShopLint.Proofs.Rule.ProxyRequired
import ShopLint.Proofs.Rule.TemplateOutput
import ShopLint.Proofs.Settings.NormalForm
import ShopLint.Proofs.Severity
import ShopLint.Proofs.Severity.Highest
import ShopLint.Proofs.Text.Case
import ShopLint.Proofs.Text.Lines
import ShopLint.Proofs.Text.Location
import ShopLint.Proofs.Text.Order
import ShopLint.Proofs.Text.Scan
import ShopLint.Proofs.Text.Search
import ShopLint.Proofs.Text.Trim
import ShopLint.Proofs.Text.Utf8
import ShopLint.Proofs.Writing
import ShopLint.Proofs.Xml.Descent
import ShopLint.Proofs.Xml.Order
import ShopLint.Proofs.Xml.RoundTrip
import ShopLint.Proofs.Xml.StartTag
import ShopLint.Proofs.Xml.Written
import ShopLint.Registry
import ShopLint.Report.Basic
import ShopLint.Report.Encoding
import ShopLint.Report.Format
import ShopLint.Report.Hint
import ShopLint.Report.Page
import ShopLint.Report.Rendering
import ShopLint.Report.Sarif
import ShopLint.Report.Style
import ShopLint.Revision
import ShopLint.Rule.AreaScope
import ShopLint.Rule.AroundPlugin
import ShopLint.Rule.Basic
import ShopLint.Rule.CoreInheritance
import ShopLint.Rule.DeprecatedJquery
import ShopLint.Rule.LayoutCache
import ShopLint.Rule.ObjectManager
import ShopLint.Rule.ProxyRequired
import ShopLint.Rule.RawSql
import ShopLint.Rule.RepositoryUse
import ShopLint.Rule.TemplateOutput
import ShopLint.Scan
import ShopLint.Settings.Basic
import ShopLint.Settings.Decoding
import ShopLint.Settings.Validation
import ShopLint.Severity
import ShopLint.Text.Base64
import ShopLint.Text.Basic
import ShopLint.Text.Case
import ShopLint.Text.CaseTable
import ShopLint.Text.Chars
import ShopLint.Text.Classes
import ShopLint.Text.Line
import ShopLint.Text.Printable
import ShopLint.Text.Quoted
import ShopLint.Text.Scan
import ShopLint.Text.Utf8
import ShopLint.Url
import ShopLint.Xml.Document
import ShopLint.Xml.Name
import ShopLint.Xml.Printer
import ShopLint.Xml.Token
import ShopLint.Yaml.Cursor
import ShopLint.Yaml.Meaning
import ShopLint.Yaml.Node
import ShopLint.Yaml.Scalar
import ShopLint.Yaml.Token
