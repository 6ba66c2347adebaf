import RowFilter.Number.Decimal
import RowFilter.Number.Reader
import RowFilter.Text.Blank
import RowFilter.Text.Utf8
import RowFilter.Time.Printer
import RowFilter.Time.Reader
import RowFilter.Row
import RowFilter.Cell
import RowFilter.Filter
import RowFilter.Plan.Saved
import RowFilter.Command.Run
import RowFilter.Main
import RowFilter.Proofs.Evaluation
import RowFilter.Proofs.Comparison
import RowFilter.Proofs.Typing
import RowFilter.Proofs.DecimalOrder
import RowFilter.Proofs.DecimalText
import RowFilter.Proofs.Alike
import RowFilter.Proofs.Field
import RowFilter.Proofs.RoundTrip
import RowFilter.Proofs.Shipping
import RowFilter.Proofs.Spelling
import RowFilter.Proofs.Torn
import RowFilter.Proofs.DecimalLength
import RowFilter.Proofs.Canonical
import RowFilter.Proofs.Tags
import RowFilter.Proofs.Reading
import RowFilter.Proofs.Clauses
import RowFilter.Proofs.Strictness
import RowFilter.Proofs.Columns
import RowFilter.Proofs.Reads
import RowFilter.Proofs.Lines
import RowFilter.Proofs.Selection
import RowFilter.Proofs.Scanning
import RowFilter.Proofs.Reporting
import RowFilter.Proofs.Coherence
import RowFilter.Proofs.ExactOrder
import RowFilter.Proofs.Rounding
import RowFilter.Proofs.ShortestDecimal
import RowFilter.Proofs.NumberOrder
import RowFilter.Proofs.Replay
import RowFilter.Proofs.Membership
import RowFilter.Proofs.Origins
import RowFilter.Proofs.Delimiters
import RowFilter.Proofs.Redelimiting
import RowFilter.Proofs.Conjunction
import RowFilter.Proofs.Rewrites
import RowFilter.Proofs.Equality
import RowFilter.Proofs.NullTypes
import RowFilter.Proofs.Description
import RowFilter.Proofs.NearestDouble
import RowFilter.Proofs.LongsAndDoubles
import RowFilter.Proofs.TimeReadings
import RowFilter.Proofs.TextFrames
import RowFilter.Proofs.TextColumns
import RowFilter.Proofs.Lexicographic
import RowFilter.Proofs.Calendar
import RowFilter.Proofs.TextOrder
import RowFilter.Proofs.Stamps
import RowFilter.Proofs.StampOrder
import RowFilter.Proofs.TimeForms
import RowFilter.Proofs.CellRuns
import RowFilter.Proofs.Setup
import RowFilter.Proofs.Joining
