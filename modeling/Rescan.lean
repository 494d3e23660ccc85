import Rescan.Fault
import Rescan.Main
import Rescan.Options
import Rescan.Scan
import Rescan.Session
import Rescan.Settings.Item
import Rescan.Settings.Reader
import Rescan.Settings.Report
import Rescan.Source.Basic
import Rescan.Source.Bytes
import Rescan.Source.Passage
import Rescan.Stream.Basic
import Rescan.Stream.Buffered
import Rescan.Stream.Stack
import Rescan.Text.Blank
import Rescan.Text.Mark
import Rescan.Text.Quoted
import Rescan.Text.Ranges
import Rescan.Text.Unassigned
import Rescan.Text.Utf8
import Rescan.Token.Delimited
import Rescan.Token.Exact
import Rescan.Token.Line
import Rescan.Token.Numeral
import Rescan.Token.Span
import Rescan.Proofs.Agreement
import Rescan.Proofs.Simulation
import Rescan.Proofs.Recognition
import Rescan.Proofs.Requests
import Rescan.Proofs.Absence
import Rescan.Proofs.Record
import Rescan.Proofs.Unbounded
import Rescan.Proofs.Division
import Rescan.Proofs.Decoding
import Rescan.Proofs.Overflow
import Rescan.Proofs.Plain
import Rescan.Proofs.Interchange
import Rescan.Proofs.Endless
import Rescan.Proofs.Rechunking
import Rescan.Proofs.Settings.Passing
import Rescan.Proofs.Settings.Composition
import Rescan.Proofs.Settings.RoundTrip
import Rescan.Proofs.Accounting
import Rescan.Proofs.Invariant
import Rescan.Proofs.Logged
import Rescan.Proofs.Effort
import Rescan.Proofs.Settings.Progress
import Rescan.Proofs.Settings.Ending
import Rescan.Proofs.Answers
import Rescan.Proofs.Lookahead
import Rescan.Proofs.Capacity
import Rescan.Proofs.Evaluation
import Rescan.Proofs.Doubling
import Rescan.Proofs.Escaping
import Rescan.Proofs.Integer
import Rescan.Proofs.Natural
import Rescan.Proofs.OutOfRange
import Rescan.Proofs.Settings.LineNumber
import Rescan.Proofs.LineEnd
import Rescan.Proofs.Lines
import Rescan.Proofs.BlankLines
import Rescan.Proofs.Words
import Rescan.Proofs.Choice
import Rescan.Proofs.Settings.CarriageReturn
