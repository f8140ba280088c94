import SqlShell.Binary64.Basic
import SqlShell.Binary64.Nearest
import SqlShell.Binary64.Reader
import SqlShell.Command
import SqlShell.CommandLine.Arguments
import SqlShell.CommandLine.Demos
import SqlShell.CommandLine.Manual
import SqlShell.CommandLine.Report
import SqlShell.CommandLine.Source
import SqlShell.Condition.Basic
import SqlShell.Condition.Reader
import SqlShell.Conversion
import SqlShell.Cursor
import SqlShell.Decimal.Basic
import SqlShell.Decimal.Layout
import SqlShell.Decimal.Reader
import SqlShell.Decimal.Shortest
import SqlShell.Document.Basic
import SqlShell.Document.Writer
import SqlShell.Entries
import SqlShell.Filter
import SqlShell.Keyword
import SqlShell.Main
import SqlShell.Operator
import SqlShell.Outline
import SqlShell.Proofs.Characters
import SqlShell.Proofs.ClauseGrammar
import SqlShell.Proofs.ClauseOrder
import SqlShell.Proofs.CommandText
import SqlShell.Proofs.ConditionGrammar
import SqlShell.Proofs.DecimalRounding
import SqlShell.Proofs.DepthLimit
import SqlShell.Proofs.DocumentKeys
import SqlShell.Proofs.DocumentText
import SqlShell.Proofs.Entries
import SqlShell.Proofs.ErrorPlaces
import SqlShell.Proofs.FaultPlaces
import SqlShell.Proofs.Faults
import SqlShell.Proofs.FilterMeaning
import SqlShell.Proofs.Grammar
import SqlShell.Proofs.IntegerSpellings
import SqlShell.Proofs.JoinedTexts
import SqlShell.Proofs.JoinedWords
import SqlShell.Proofs.Lexemes
import SqlShell.Proofs.Lookahead
import SqlShell.Proofs.Nesting
import SqlShell.Proofs.NumberRoundTrip
import SqlShell.Proofs.NumberText
import SqlShell.Proofs.Numerals
import SqlShell.Proofs.OpenCommands
import SqlShell.Proofs.OpenSentences
import SqlShell.Proofs.OutlineLeaves
import SqlShell.Proofs.OutlineText
import SqlShell.Proofs.PartGrammar
import SqlShell.Proofs.Phrases
import SqlShell.Proofs.Printing
import SqlShell.Proofs.QuotedNumbers
import SqlShell.Proofs.QuotedText
import SqlShell.Proofs.RadixRounding
import SqlShell.Proofs.Rendering
import SqlShell.Proofs.RepeatedReading
import SqlShell.Proofs.ReservedWords
import SqlShell.Proofs.Rounding
import SqlShell.Proofs.ScannerRuns
import SqlShell.Proofs.Scanning
import SqlShell.Proofs.SourceReports
import SqlShell.Proofs.StatementGrammar
import SqlShell.Proofs.StatementLookahead
import SqlShell.Proofs.StatementOutlines
import SqlShell.Proofs.UnsupportedOperators
import SqlShell.Proofs.WellFormed
import SqlShell.Statement.Basic
import SqlShell.Statement.Outline
import SqlShell.Statement.Reader
import SqlShell.Text.Blank
import SqlShell.Text.Hidden
import SqlShell.Text.Letter
import SqlShell.Text.Numeral
import SqlShell.Text.Quoted
import SqlShell.Text.Ranges
import SqlShell.Token.Basic
import SqlShell.Token.Scan
