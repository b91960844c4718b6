import MeshFacts.Main
import MeshFacts.Reader
import MeshFacts.Chunker
import MeshFacts.Report
import MeshFacts.Proofs.WireRoundTrip
import MeshFacts.Proofs.Delivery
import MeshFacts.Proofs.Authority
import MeshFacts.Proofs.Removals
import MeshFacts.Proofs.HandshakeTimes
import MeshFacts.Proofs.PeerFrames
import MeshFacts.Proofs.NetOutcomes
import MeshFacts.Proofs.PeerHistories
import MeshFacts.Proofs.Vouching
import MeshFacts.Proofs.PeerIndependence
import MeshFacts.Proofs.PassRequests
import MeshFacts.Proofs.Interleavings
import MeshFacts.Proofs.Isolation
import MeshFacts.Proofs.PeerSteps
import MeshFacts.Proofs.Settling
import MeshFacts.Proofs.OverlayRoutes
import MeshFacts.Proofs.RefusedMoves
import MeshFacts.Proofs.Reflection
import MeshFacts.Proofs.KnowledgeHistories
import MeshFacts.Proofs.FactMerging
import MeshFacts.Proofs.FactHistories
import MeshFacts.Proofs.Selections
import MeshFacts.Proofs.BroadcastTurns
import MeshFacts.Proofs.BroadcastIsolation
import MeshFacts.Proofs.BroadcastRepeats
import MeshFacts.Proofs.Reprobing
import MeshFacts.Proofs.Announcements
import MeshFacts.Proofs.Introductions
import MeshFacts.Proofs.NormalFacts
import MeshFacts.Proofs.Acceptance
import MeshFacts.Proofs.Authenticity
import MeshFacts.Proofs.Inflow
import MeshFacts.Proofs.PackingRuns
import MeshFacts.Proofs.RouterViews
import MeshFacts.Proofs.NormalNets
import MeshFacts.Proofs.CommandedUpdates
import MeshFacts.Proofs.Layering
import MeshFacts.Proofs.AdmittedFacts
import MeshFacts.Proofs.Observations
import MeshFacts.Proofs.EndpointTurns
import MeshFacts.Proofs.Truncation
import MeshFacts.Proofs.Concatenations
import MeshFacts.Proofs.CanonicalMerging
import MeshFacts.Proofs.SigningHistories
import MeshFacts.Proofs.KeySpellings
import MeshFacts.Proofs.Validation
import MeshFacts.Proofs.RouterSetting
import MeshFacts.Proofs.DumpReading
