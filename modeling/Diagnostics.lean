import Diagnostics.Capability.Rule
import Diagnostics.Collector.Session
import Diagnostics.Comparison
import Diagnostics.Json.Forms
import Diagnostics.Severity.Membership
import Diagnostics.Proofs.Capability.Chronicle
import Diagnostics.Proofs.Capability.Requests
import Diagnostics.Proofs.Capability.Bound
import Diagnostics.Proofs.Capability.Steps
import Diagnostics.Proofs.Capability.FirstMatch
import Diagnostics.Proofs.Capability.TypeTags
import Diagnostics.Proofs.Capability.Simulation
import Diagnostics.Proofs.Capability.Isolation
import Diagnostics.Proofs.Capability.Provenance
import Diagnostics.Proofs.Capability.Counters
import Diagnostics.Proofs.Capability.Purity
import Diagnostics.Proofs.Capability.Nesting
import Diagnostics.Proofs.Json.RoundTrip
import Diagnostics.Proofs.Json.Decoding
import Diagnostics.Proofs.Severity.Parts
import Diagnostics.Proofs.Severity.FiniteSet
import Diagnostics.Proofs.Json.Range
import Diagnostics.Proofs.Severity.Grammar
import Diagnostics.Proofs.Severity.Joining
import Diagnostics.Proofs.Severity.Gravity
import Diagnostics.Proofs.Capability.Filing
import Diagnostics.Proofs.Capability.RegistrationLog
import Diagnostics.Proofs.Capability.Accounting
import Diagnostics.Proofs.Collector.History
import Diagnostics.Proofs.Collector.Clearing
import Diagnostics.Proofs.Collector.Filtering
import Diagnostics.Proofs.Collector.Emission
import Diagnostics.Proofs.Collector.Refusal
import Diagnostics.Proofs.Problem.Line
import Diagnostics.Proofs.Problem.NormalForm
import Diagnostics.Proofs.Capability.Course
import Diagnostics.Proofs.Capability.Trace
import Diagnostics.Proofs.Capability.Identity
import Diagnostics.Proofs.Capability.Counting
