import Switchboard.App.Dispatcher
import Switchboard.App.Group
import Switchboard.Disk.Tree
import Switchboard.Profiles
import Switchboard.Config.Json
import Switchboard.Lifecycle.Basic
import Switchboard.Lifecycle.Call
import Switchboard.Lifecycle.Machine
import Switchboard.Lifecycle.Once
import Switchboard.Lifecycle.Session
import Switchboard.Proofs.App.Scan
import Switchboard.Proofs.Lifecycle.Deadlines
import Switchboard.Proofs.Routing.Conflicts
import Switchboard.Proofs.Static.Confinement
import Switchboard.Proofs.Static.HeadRequests
import Switchboard.Proofs.Lifecycle.Gate
import Switchboard.Proofs.Lifecycle.OnceOnly
import Switchboard.Proofs.Routing.Allowed
import Switchboard.Proofs.App.Acceptance
import Switchboard.Proofs.Text.Casing
import Switchboard.Proofs.App.Replay
import Switchboard.Proofs.App.Chains
import Switchboard.Proofs.Routing.Captures
import Switchboard.Proofs.App.Sequence
import Switchboard.Proofs.App.Slashes
import Switchboard.Proofs.Routing.Nodes
import Switchboard.Proofs.Routing.Grammar
import Switchboard.Proofs.Routing.Filling
import Switchboard.Proofs.Routing.Requests
import Switchboard.Proofs.App.Changes
import Switchboard.Proofs.App.HandedOver
import Switchboard.Proofs.App.Resources
import Switchboard.Proofs.App.Profiles
import Switchboard.Proofs.Routing.Offsets
import Switchboard.Proofs.Text.Html
import Switchboard.Proofs.Text.Escapes
import Switchboard.Proofs.Static.Listing
import Switchboard.Proofs.Static.Links
import Switchboard.Proofs.Json.Grammar
import Switchboard.Proofs.Json.Skipping
import Switchboard.Proofs.Json.Texts
import Switchboard.Proofs.Json.Reading
import Switchboard.Proofs.Json.Records
import Switchboard.Proofs.Config.RoundTrip
