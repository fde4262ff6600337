import TableAccess.Calendar.Reader
import TableAccess.Calendar.Writer
import TableAccess.Connection.Rehearsal
import TableAccess.Document.Reader
import TableAccess.Login.Description
import TableAccess.Number.Decimal
import TableAccess.Placeholder.Positional
import TableAccess.Proofs.Transaction.Block
import TableAccess.Server.Link
import TableAccess.Session.Operation
import TableAccess.Statement.Table
import TableAccess.Wire.Cell
import TableAccess.Wire.Parameter
import TableAccess.Proofs.Statement.Build
import TableAccess.Proofs.Transaction.Run
import TableAccess.Proofs.Session.History
import TableAccess.Proofs.Session.Fallback
import TableAccess.Proofs.Statement.Outcome
import TableAccess.Proofs.Statement.Binding
import TableAccess.Proofs.Statement.Independence
import TableAccess.Proofs.Identifier.Front
import TableAccess.Proofs.Statement.Unambiguous
import TableAccess.Proofs.Row.History
import TableAccess.Proofs.Server.Loss
import TableAccess.Proofs.Placeholder.Scan
import TableAccess.Proofs.Session.Trial
import TableAccess.Proofs.Server.Unsendable
import TableAccess.Proofs.Identifier.Offset
import TableAccess.Proofs.Text.Offset
import TableAccess.Proofs.Statement.History
import TableAccess.Proofs.Statement.Insertion
import TableAccess.Proofs.Statement.Keyed
import TableAccess.Proofs.Session.ReadBack
import TableAccess.Proofs.Session.KeyedUpdate
import TableAccess.Statement.Edit
import TableAccess.Proofs.Identifier.Grammar
import TableAccess.Proofs.Placeholder.Opaque
import TableAccess.Proofs.Session.CoercedKey
import TableAccess.Proofs.Wire.Numeric
import TableAccess.Proofs.Wire.Record
import TableAccess.Proofs.Wire.BigEndian
import TableAccess.Proofs.Wire.Integer
import TableAccess.Proofs.Calendar.Range
import TableAccess.Proofs.Calendar.ReadBack
import TableAccess.Proofs.Wire.Fetched
import TableAccess.Proofs.Placeholder.ServerReading
import TableAccess.Proofs.Placeholder.Parameter
import TableAccess.Proofs.Session.InsertList
import TableAccess.Proofs.Session.PairedRecord
import TableAccess.Proofs.Statement.Condition
import TableAccess.Proofs.Placeholder.Recompilation
import TableAccess.Proofs.Transaction.LoggedSql
