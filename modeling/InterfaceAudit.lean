import InterfaceAudit.Audit.Document
import InterfaceAudit.Audit.Feature
import InterfaceAudit.CommandLine
import InterfaceAudit.CrossReference
import InterfaceAudit.Grammar.Expression
import InterfaceAudit.Idl.Declaration
import InterfaceAudit.Idl.Document
import InterfaceAudit.Idl.Grammar
import InterfaceAudit.Idl.Token
import InterfaceAudit.Json.Basic
import InterfaceAudit.Json.Printer
import InterfaceAudit.Json.Reader
import InterfaceAudit.Main
import InterfaceAudit.Narrative
import InterfaceAudit.Native.Header
import InterfaceAudit.Native.Implementation
import InterfaceAudit.Path
import InterfaceAudit.Project.Event
import InterfaceAudit.Project.FileTree
import InterfaceAudit.Project.Generate
import InterfaceAudit.Project.Interface
import InterfaceAudit.Project.Layout
import InterfaceAudit.Project.Reading
import InterfaceAudit.Project.Report
import InterfaceAudit.Project.Run
import InterfaceAudit.Script.Classes
import InterfaceAudit.Script.Cursor
import InterfaceAudit.Script.Expressions
import InterfaceAudit.Script.Lexeme
import InterfaceAudit.Script.Node
import InterfaceAudit.Script.Phrase
import InterfaceAudit.Script.Program
import InterfaceAudit.Script.Statements
import InterfaceAudit.Script.Tests
import InterfaceAudit.Script.Types
import InterfaceAudit.Script.Wrapper
import InterfaceAudit.Settings.Basic
import InterfaceAudit.Settings.Checked
import InterfaceAudit.Settings.Sources
import InterfaceAudit.Settings.VariableFile
import InterfaceAudit.Symbols
import InterfaceAudit.Table
import InterfaceAudit.Text.Case
import InterfaceAudit.Text.CaseTable
import InterfaceAudit.Text.CharClass
import InterfaceAudit.Text.CharTable
import InterfaceAudit.Text.Kebab
import InterfaceAudit.Text.Lines
import InterfaceAudit.Text.Search
import InterfaceAudit.Text.Squeeze
import InterfaceAudit.Text.Utf8
import InterfaceAudit.Proofs.Grammar.Extension
import InterfaceAudit.Proofs.Idl.Scan
import InterfaceAudit.Proofs.Idl.Landmark
import InterfaceAudit.Proofs.Idl.Statement
import InterfaceAudit.Proofs.Grammar.Kept
import InterfaceAudit.Proofs.Idl.Alternative
import InterfaceAudit.Proofs.Idl.Concatenation
import InterfaceAudit.Proofs.Project.Artifacts
import InterfaceAudit.Proofs.Project.Containment
import InterfaceAudit.Proofs.Idl.Name
import InterfaceAudit.Proofs.Project.Stored
import InterfaceAudit.Proofs.Project.Isolation
import InterfaceAudit.Proofs.Idl.Written.Argument
import InterfaceAudit.Proofs.Idl.Written.Operation
import InterfaceAudit.Proofs.Idl.Written.Collection
import InterfaceAudit.Proofs.Idl.Written.Member
import InterfaceAudit.Proofs.Idl.Written.Body
import InterfaceAudit.Proofs.Idl.Written.Definition
import InterfaceAudit.Proofs.Idl.Written.Document
import InterfaceAudit.Proofs.Native.Link
import InterfaceAudit.Proofs.Project.Matching
import InterfaceAudit.Proofs.Project.Output
import InterfaceAudit.Proofs.Project.Policy
import InterfaceAudit.Proofs.Project.Schedule
import InterfaceAudit.Proofs.Project.Repetition
import InterfaceAudit.Proofs.Project.Accounting
import InterfaceAudit.Proofs.Grammar.Lockstep
import InterfaceAudit.Proofs.Idl.Closed
import InterfaceAudit.Proofs.Idl.Interval
import InterfaceAudit.Proofs.Idl.Refill
import InterfaceAudit.Proofs.Grammar.Agreement
import InterfaceAudit.Proofs.Idl.Alike
import InterfaceAudit.Proofs.Idl.Agreement
import InterfaceAudit.Proofs.Idl.Respacing
import InterfaceAudit.Proofs.Project.Identity
import InterfaceAudit.Proofs.Text.Lines
import InterfaceAudit.Proofs.Native.LineNumber
import InterfaceAudit.Proofs.Script.Wrapper
import InterfaceAudit.Proofs.CrossReference.Staticness
import InterfaceAudit.Proofs.Narrative.Section
import InterfaceAudit.Proofs.Narrative.Written
import InterfaceAudit.Proofs.Narrative.RoundTrip
import InterfaceAudit.Proofs.Native.Extent
import InterfaceAudit.Proofs.Narrative.Confinement
import InterfaceAudit.Proofs.Narrative.StaticMark
import InterfaceAudit.Proofs.Json.Fields
import InterfaceAudit.Proofs.Settings.Resolution
import InterfaceAudit.Proofs.Settings.ListSource
import InterfaceAudit.Proofs.Json.Literal
import InterfaceAudit.Proofs.Json.RoundTrip
import InterfaceAudit.Proofs.Text.Utf8
import InterfaceAudit.Proofs.Json.Decoder
import InterfaceAudit.Proofs.Audit.RoundTrip
import InterfaceAudit.Proofs.Grammar.Confined
import InterfaceAudit.Proofs.Idl.Truncation
import InterfaceAudit.Proofs.Idl.LongestPrefix
import InterfaceAudit.Proofs.Grammar.Derivation
import InterfaceAudit.Proofs.Text.Spacing
import InterfaceAudit.Proofs.Text.Canonical
import InterfaceAudit.Proofs.Idl.QuotedDefault
import InterfaceAudit.Proofs.Idl.Words
import InterfaceAudit.Proofs.Idl.TypeLayout
import InterfaceAudit.Proofs.Idl.TypeText
import InterfaceAudit.Proofs.Idl.Compact
import InterfaceAudit.Proofs.Idl.Compaction
import InterfaceAudit.Proofs.Idl.TypeStability
import InterfaceAudit.Proofs.Grammar.Trace
import InterfaceAudit.Proofs.Idl.KeywordEnd
import InterfaceAudit.Proofs.CrossReference.MissingSymbol
import InterfaceAudit.Proofs.Text.Case
import InterfaceAudit.Proofs.CrossReference.SharedSymbol
import InterfaceAudit.Proofs.Idl.Merging
import InterfaceAudit.Proofs.Script.ClassSearch
import InterfaceAudit.Proofs.Idl.DefinitionLines
import InterfaceAudit.Proofs.Script.TestCalls
import InterfaceAudit.Proofs.Native.ReturnTypes
import InterfaceAudit.Proofs.Native.RepeatedDefinition
import InterfaceAudit.Proofs.Native.Head
import InterfaceAudit.Proofs.Idl.KebabName
