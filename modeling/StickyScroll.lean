import StickyScroll.Buffer
import StickyScroll.ScriptedStore
import StickyScroll.Registry
import StickyScroll.Manager
import StickyScroll.Inspect
import StickyScroll.Json.Snapshot
import StickyScroll.Session.Run
import StickyScroll.Proofs.Buffer.Order
import StickyScroll.Proofs.Text.Seam
import StickyScroll.Proofs.Buffer.Edit
import StickyScroll.Proofs.Buffer.History
import StickyScroll.Proofs.Buffer.Tagged
import StickyScroll.Proofs.Buffer.Anchoring
import StickyScroll.Proofs.Buffer.Refusal
import StickyScroll.Proofs.Buffer.Commuting
import StickyScroll.Proofs.Registry.Change
import StickyScroll.Proofs.Registry.Desk
import StickyScroll.Proofs.Registry.Filtering
import StickyScroll.Proofs.Manager.Office
import StickyScroll.Proofs.Buffer.Nesting
import StickyScroll.Proofs.Registry.Preorder
import StickyScroll.Proofs.Registry.Frame
import StickyScroll.Proofs.Manager.House
import StickyScroll.Proofs.Manager.Ownership
import StickyScroll.Proofs.Manager.Departed
import StickyScroll.Proofs.Manager.Resolve
import StickyScroll.Proofs.Session.Lasting
import StickyScroll.Proofs.Manager.Holding
import StickyScroll.Proofs.Manager.Closing
import StickyScroll.Proofs.Session.Ledger
import StickyScroll.Proofs.Session.Nested
import StickyScroll.Proofs.Session.Notification
import StickyScroll.Proofs.Session.Reentrancy
import StickyScroll.Proofs.Session.Walk
import StickyScroll.Proofs.Buffer.Composing
import StickyScroll.Proofs.Registry.Receipt
import StickyScroll.Proofs.Session.Accounting
import StickyScroll.Proofs.Json.Token
import StickyScroll.Proofs.Json.Record
import StickyScroll.Proofs.Json.Snapshot
import StickyScroll.Proofs.Registry.Listing
import StickyScroll.Proofs.Manager.Adding
import StickyScroll.Proofs.Manager.Removing
import StickyScroll.Proofs.Manager.Renewing
import StickyScroll.Proofs.Manager.Registering
import StickyScroll.Proofs.Manager.Counting
import StickyScroll.Proofs.Manager.Pruning
import StickyScroll.Proofs.Registry.Insertion
import StickyScroll.Proofs.Buffer.Scanning
import StickyScroll.Proofs.StickyLine.Comparing
import StickyScroll.Proofs.Text.Breaks
import StickyScroll.Proofs.Manager.Numbering
import StickyScroll.Proofs.Manager.Renumbering
import StickyScroll.Proofs.StickyLine.Sorting
import StickyScroll.Proofs.Visits
