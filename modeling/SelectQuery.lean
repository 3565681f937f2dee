import SelectQuery.Query.Lexemes
import SelectQuery.Query.Schema
import SelectQuery.Query.Leaves
import SelectQuery.Reader.Query
import SelectQuery.Proofs.Reading.Call
import SelectQuery.Proofs.Reading.Expression
import SelectQuery.Proofs.Reading.Column
import SelectQuery.Proofs.Reading.Condition
import SelectQuery.Proofs.Reading.Query
import SelectQuery.Proofs.Reading.Local
import SelectQuery.Proofs.Reading.Window
import SelectQuery.Proofs.Reading.Failure
import SelectQuery.Proofs.Reading.Needed
import SelectQuery.Proofs.Reading.SplitLiteral
import SelectQuery.Proofs.Reading.Matched
import SelectQuery.Proofs.Reading.Reported
import SelectQuery.Proofs.Reading.WellFormed
import SelectQuery.Proofs.Written.Call
import SelectQuery.Proofs.Written.Legible
import SelectQuery.Proofs.Written.RoundTrip
import SelectQuery.Proofs.Written.Regrouping
import SelectQuery.Proofs.Written.Readable
import SelectQuery.Proofs.Likeness.View
import SelectQuery.Proofs.Likeness.Basic
import SelectQuery.Proofs.Likeness.Reading
import SelectQuery.Proofs.Likeness.Literal
import SelectQuery.Proofs.Limit
import SelectQuery.Proofs.LetterCase
import SelectQuery.Proofs.Union
import SelectQuery.Proofs.Likeness.Capitals
import SelectQuery.Proofs.Schema.Fields
import SelectQuery.Proofs.Schema.Written
import SelectQuery.Proofs.Schema.Exact
import SelectQuery.Proofs.Likeness.SameText
import SelectQuery.Proofs.Likeness.Spelling
import SelectQuery.Proofs.Reading.Segments
import SelectQuery.Proofs.SourceOrder
import SelectQuery.Proofs.Depth
import SelectQuery.Proofs.Checked.Basic
import SelectQuery.Proofs.Checked.Scan
import SelectQuery.Proofs.Checked.Expression
import SelectQuery.Proofs.Checked.Query
