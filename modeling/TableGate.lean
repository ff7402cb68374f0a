import TableGate.Change.Feed
import TableGate.Config.Reader
import TableGate.Draft
import TableGate.Gateway
import TableGate.Proofs.Statement.Layout
import TableGate.Proofs.Statement.Keyword
import TableGate.Proofs.Statement.Outline
import TableGate.Proofs.Statement.Lexeme
import TableGate.Proofs.Statement.Naming
import TableGate.Proofs.Compile.Outcome
import TableGate.Proofs.Compile.Congruence
import TableGate.Proofs.Compile.Shape
import TableGate.Proofs.Compile.Naming
import TableGate.Proofs.Compile.Threading
import TableGate.Proofs.Compile.BindingOrder
import TableGate.Proofs.Statement.Placeholder
import TableGate.Proofs.Service.Exchange
import TableGate.Proofs.Gateway.Action
import TableGate.Proofs.Gateway.Announcement
import TableGate.Proofs.Gateway.Tenancy
import TableGate.Proofs.Gateway.Validation
import TableGate.Proofs.Gateway.Trace
import TableGate.Proofs.Service.Rehydration
import TableGate.Proofs.Gateway.Publication
import TableGate.Proofs.Gateway.Refusal
import TableGate.Proofs.Config.Listing
import TableGate.Proofs.Config.Resolution
import TableGate.Proofs.Config.Enforcement
import TableGate.Proofs.Change.Reader
import TableGate.Proofs.Change.Delivery
import TableGate.Proofs.Text.Splitting
import TableGate.Proofs.Compile.Check
import TableGate.Proofs.Compile.Parameter
import TableGate.Proofs.Compile.Assignment
import TableGate.Proofs.Compile.Admission
import TableGate.Proofs.Compile.Insertion
import TableGate.Proofs.Compile.OperandList
import TableGate.Proofs.Service.Alignment
import TableGate.Proofs.Compile.Alternative
import TableGate.Proofs.Compile.Narrowing
import TableGate.Proofs.Projection.RoundTrip
import TableGate.Proofs.Projection.Acceptance
import TableGate.Proofs.Statement.Relation
import TableGate.Proofs.Compile.Joining
import TableGate.Proofs.Compile.Equality
import TableGate.Proofs.Compile.ReadAdmission
import TableGate.Proofs.Compile.Rereading
import TableGate.Proofs.Number.Rounding
import TableGate.Proofs.Datum.Wire
import TableGate.Proofs.Datum.Uuid
import TableGate.Proofs.Datum.Date
import TableGate.Proofs.Json.Integer
import TableGate.Proofs.Compile.Storing
import TableGate.Proofs.Compile.Spelling
import TableGate.Proofs.Statement.Correlation
import TableGate.Proofs.Compile.Reference
import TableGate.Proofs.Compile.Paging
import TableGate.Proofs.Config.Paging
import TableGate.Proofs.Text.Outermost
import TableGate.Proofs.Statement.Scanning
