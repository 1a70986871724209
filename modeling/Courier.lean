import Courier.Handling.Inbox
import Courier.Json.Printer
import Courier.Order.Desk
import Courier.Order.Registration
import Courier.Proofs.Custody.Clients
import Courier.Proofs.Publishing.Attempts
import Courier.Proofs.Publishing.Causes
import Courier.Proofs.Publishing.Leases
import Courier.Snapshot.Orders
import Courier.Snapshot.Publishing
import Courier.Snapshot.Rows
import Courier.Workbench.Report
import Courier.Workbench.Session
import Courier.Proofs.Custody.Ceiling
import Courier.Proofs.Publishing.Remainder
import Courier.Proofs.Publishing.Reports
import Courier.Proofs.Interleaving.Faultless
import Courier.Proofs.Interleaving.Swaps
import Courier.Proofs.Store.Documents
import Courier.Proofs.Interleaving.Commits
import Courier.Proofs.Interleaving.Updates
import Courier.Proofs.Publishing.Deliveries
import Courier.Proofs.Publishing.Dependents
import Courier.Proofs.Publishing.InTurn
import Courier.Proofs.Time.Calendar
import Courier.Proofs.Time.Text
import Courier.Proofs.Envelope.Wire
import Courier.Proofs.Handling.Receipts
import Courier.Proofs.Interleaving.Transactions
import Courier.Proofs.Publishing.Publications
import Courier.Proofs.Order.Commands
import Courier.Proofs.Order.Standings
import Courier.Proofs.Order.Wire
import Courier.Proofs.Reaction.Notices
import Courier.Proofs.Order.Ledger
import Courier.Proofs.Interleaving.Narrower
import Courier.Proofs.Interleaving.Numbers
import Courier.Proofs.Publishing.Handovers
import Courier.Proofs.Order.Summaries
import Courier.Proofs.Order.Convergence
import Courier.Proofs.Envelope.Typed
import Courier.Proofs.Publishing.Accounts
import Courier.Proofs.Publishing.Alone
import Courier.Proofs.Envelope.Postings
import Courier.Proofs.Publishing.Delays
import Courier.Proofs.Publishing.Smooth
import Courier.Proofs.Publishing.Guards
import Courier.Proofs.Publishing.Progress
import Courier.Proofs.Publishing.Reasons
import Courier.Proofs.Handling.Dispatches
import Courier.Proofs.Publishing.Schedules
import Courier.Proofs.Reaction.Contexts
import Courier.Proofs.Service.Listings
import Courier.Proofs.Envelope.Lineage
import Courier.Proofs.Interleaving.Chronicles
import Courier.Proofs.Reaction.Lineal
import Courier.Proofs.Reaction.RaiseOrder
import Courier.Proofs.Publishing.Operators
import Courier.Proofs.Envelope.Rewrapping
import Courier.Proofs.Service.RoutingKeys
