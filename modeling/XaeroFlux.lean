import XaeroFlux.Lib.Machine
import XaeroFlux.Lib.Keyed
import XaeroFlux.Lib.JsonPretty
import XaeroFlux.Lib.JsonRead
import XaeroFlux.Lib.Utf8
import XaeroFlux.Event
import XaeroFlux.Topic
import XaeroFlux.Node
import XaeroFlux.Proofs.Node
import XaeroFlux.Proofs.Once
import XaeroFlux.Proofs.Sendable
import XaeroFlux.Mesh
import XaeroFlux.Proofs.Mesh
import XaeroFlux.PeerTracker
import XaeroFlux.Proofs.PeerTracker
import XaeroFlux.Swarm
import XaeroFlux.Proofs.Swarm
import XaeroFlux.Discovery
import XaeroFlux.Proofs.Discovery
import XaeroFlux.Isolation
import XaeroFlux.Proofs.Isolation
import XaeroFlux.Lib.UnixPath
import XaeroFlux.Identity
import XaeroFlux.Proofs.Identity
import XaeroFlux.Bootstrap
import XaeroFlux.Lib.Unwinding
import XaeroFlux.Proofs.Bootstrap
import XaeroFlux.Lib.JsonText
import XaeroFlux.Lib.JsonFields
import XaeroFlux.Lib.Overflow
import XaeroFlux.Snapshot
import XaeroFlux.Proofs.SnapshotTransfer
import XaeroFlux.Lib.Accum
import XaeroFlux.Proofs.SnapshotStore
import XaeroFlux.Proofs.SnapshotOwn
import XaeroFlux.Proofs.SnapshotWire
import XaeroFlux.Negotiation
import XaeroFlux.Proofs.Negotiation
import XaeroFlux.Proofs.Rendezvous
import XaeroFlux.Lifetime
import XaeroFlux.Proofs.Lifetime
import XaeroFlux.Proofs.Advertised
import XaeroFlux.Proofs.Departure
import XaeroFlux.Proofs.Relay
import XaeroFlux.Proofs.SnapshotHistory
import XaeroFlux.Proofs.Forwarding
import XaeroFlux.Proofs.Resume
import XaeroFlux.Proofs.Subscriptions
import XaeroFlux.Proofs.Publish
import XaeroFlux.Proofs.TrackerStats
import XaeroFlux.Proofs.HolderRegistry
import XaeroFlux.Proofs.SnapshotDecision
import XaeroFlux.Proofs.EventIds
import XaeroFlux.Proofs.Sharing
import XaeroFlux.Forwarder
import XaeroFlux.Proofs.Acquainted
import XaeroFlux.Proofs.Forwarder
import XaeroFlux.Proofs.Recovered
import XaeroFlux.SnapshotSync
import XaeroFlux.Proofs.SnapshotSync
import XaeroFlux.Proofs.TrackerFaults
import XaeroFlux.Proofs.Republish
import XaeroFlux.Proofs.Serial
import XaeroFlux.Startup
import XaeroFlux.Proofs.Startup
import XaeroFlux.BootstrapNode
import XaeroFlux.Proofs.BootstrapNode
import XaeroFlux.Proofs.Drain
import XaeroFlux.Proofs.Convergence
import XaeroFlux.Proofs.Answered
