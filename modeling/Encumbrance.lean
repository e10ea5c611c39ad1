import Encumbrance.Decimal.Basic
import Encumbrance.Decimal.Arith
import Encumbrance.Decimal.Parse
import Encumbrance.Text.Blank
import Encumbrance.Float.Binary
import Encumbrance.Float.Literal
import Encumbrance.Calendar.Date
import Encumbrance.Calendar.Fiscal
import Encumbrance.Money.Currency
import Encumbrance.Dimension.Key
import Encumbrance.Dimension.Resolve
import Encumbrance.Config.Basic
import Encumbrance.Config.Datetime
import Encumbrance.Config.Toml
import Encumbrance.Config.Layers
import Encumbrance.Config.Load
import Encumbrance.Ledger.Entry
import Encumbrance.Identity.Uuid
import Encumbrance.Allocation.Basic
import Encumbrance.Control.Error
import Encumbrance.Allocation.Slice
import Encumbrance.Json.Value
import Encumbrance.Json.Number
import Encumbrance.Json.Read
import Encumbrance.Interchange.Decode
import Encumbrance.Interchange.Encode
import Encumbrance.Ledger.Store
import Encumbrance.Ledger.Lock
import Encumbrance.Availability.Sources
import Encumbrance.Availability.Cache
import Encumbrance.Availability.Calculator
import Encumbrance.Control.Types
import Encumbrance.Control.State
import Encumbrance.Control.Controller
import Encumbrance.Interchange.Events
import Encumbrance.Control.Dispatch
import Encumbrance.Cli.Script
import Encumbrance.Cli.Replay
import Encumbrance.Cli.Args
import Encumbrance.Cli.Run
import Encumbrance.Main
import Encumbrance.Proofs.Decimal.Exact
import Encumbrance.Proofs.Ledger.Locks
import Encumbrance.Proofs.Ledger.Append
import Encumbrance.Proofs.Control.Run
import Encumbrance.Proofs.Control.Plan
import Encumbrance.Proofs.Control.Demand
import Encumbrance.Proofs.Control.Atomicity
import Encumbrance.Proofs.State.Positions
import Encumbrance.Proofs.State.Batches
import Encumbrance.Proofs.State.Steps
import Encumbrance.Proofs.State.Balance
import Encumbrance.Proofs.Availability.Cache
import Encumbrance.Proofs.Availability.Agreement
import Encumbrance.Proofs.Availability.Figures
import Encumbrance.Proofs.Control.Gate
import Encumbrance.Proofs.Control.Unchecked
import Encumbrance.Proofs.Control.Applied
import Encumbrance.Proofs.State.Status
import Encumbrance.Proofs.Control.RoundTrip
import Encumbrance.Proofs.Control.Cancellation
import Encumbrance.Proofs.Availability.Overshoot
import Encumbrance.Proofs.Availability.Transparency
import Encumbrance.Proofs.Control.Idempotence
import Encumbrance.Proofs.Availability.Invisibility
import Encumbrance.Proofs.Ledger.Built
import Encumbrance.Proofs.Availability.Formula
import Encumbrance.Proofs.Availability.Conservation
import Encumbrance.Proofs.Control.Locality
import Encumbrance.Proofs.Control.Serializability
import Encumbrance.Proofs.Control.Overruns
import Encumbrance.Proofs.Allocation.Slicing
import Encumbrance.Proofs.Ledger.Checks
import Encumbrance.Proofs.Dimension.Placement
import Encumbrance.Proofs.Dimension.Resolution
import Encumbrance.Proofs.State.Reconciliation
