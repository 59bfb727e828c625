import Firewall.Inventory.Catalogue
import Firewall.Messaging.Service
import Firewall.Settings
import Firewall.Store.Document
import Firewall.Proofs.Arn
import Firewall.Proofs.Evaluation.Edits
import Firewall.Proofs.Evaluation.Lines
import Firewall.Proofs.Evaluation.References
import Firewall.Proofs.Inventory.Expression
import Firewall.Proofs.Inventory.Paging
import Firewall.Proofs.Messaging.Invocation
import Firewall.Proofs.Resolution.Denial
import Firewall.Proofs.Resolution.Failures
import Firewall.Proofs.Resolution.Siblings
import Firewall.Proofs.Resolver.Attachments
import Firewall.Proofs.Resolver.Conjunctions
import Firewall.Proofs.Resolver.FunctionTags
import Firewall.Proofs.Resolver.Literals
import Firewall.Proofs.Resolver.Origin
import Firewall.Proofs.Resolver.Scaling
import Firewall.Proofs.Scheduler.Confluence
import Firewall.Proofs.Scheduler.Clock
import Firewall.Proofs.Scheduler.Isolation
import Firewall.Proofs.Scheduler.Reconciliation
import Firewall.Proofs.Scheduler.Regrouping
import Firewall.Proofs.Scheduler.Rounds
import Firewall.Proofs.Store.Drift
import Firewall.Proofs.Store.Operation
import Firewall.Proofs.Store.Scanning
import Firewall.Proofs.Store.Sharing
