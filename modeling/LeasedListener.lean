import LeasedListener.Host.Basic
import LeasedListener.Host.Settings
import LeasedListener.Lease.Server.Address
import LeasedListener.Lease.Server.Protocol
import LeasedListener.Log.Format
import LeasedListener.Queue.Record
import LeasedListener.Scenario.Run
import LeasedListener.Proofs.Host.Breakdown
import LeasedListener.Proofs.Host.Dispatch
import LeasedListener.Proofs.Host.Handover
import LeasedListener.Proofs.Host.Settings
import LeasedListener.Proofs.Host.Vigilance
import LeasedListener.Proofs.Identifier.Grammar
import LeasedListener.Proofs.Interval.Repetition
import LeasedListener.Proofs.Leadership.Departure
import LeasedListener.Proofs.Leadership.Outage
import LeasedListener.Proofs.Leadership.Outcome
import LeasedListener.Proofs.Leadership.Tenure
import LeasedListener.Proofs.Leadership.Term
import LeasedListener.Proofs.Lease.Grant
import LeasedListener.Proofs.Polling.Balance
import LeasedListener.Proofs.Polling.Chronicle
import LeasedListener.Proofs.Polling.Conservation
import LeasedListener.Proofs.Polling.Drain
import LeasedListener.Proofs.Polling.Exclusivity
import LeasedListener.Proofs.Polling.Retry
import LeasedListener.Proofs.Polling.Surfacing
import LeasedListener.Proofs.Polling.Sweep
import LeasedListener.Proofs.Polling.Vigil
import LeasedListener.Proofs.Queue.Faults
import LeasedListener.Proofs.Queue.Inventory
import LeasedListener.Proofs.Queue.Order
import LeasedListener.Proofs.Queue.Receipts
import LeasedListener.Proofs.Queue.Record
import LeasedListener.Proofs.Timer.Lifecycle
