import ManagedCode.Main
import ManagedCode.Notation.Write
import ManagedCode.World.Sample
import ManagedCode.Proofs.Steps
import ManagedCode.Proofs.Bytes
import ManagedCode.Proofs.Decoding
import ManagedCode.Proofs.Footprint
import ManagedCode.Proofs.Imprint
import ManagedCode.Proofs.Recording
import ManagedCode.Proofs.Application
import ManagedCode.Proofs.Overlay
import ManagedCode.Proofs.Shifting
import ManagedCode.Proofs.Moving
import ManagedCode.Proofs.Installing
import ManagedCode.Proofs.Targets
import ManagedCode.Proofs.Handles
import ManagedCode.Proofs.Lowering
import ManagedCode.Proofs.Naming
import ManagedCode.Proofs.Refusal
import ManagedCode.Proofs.Ownership
import ManagedCode.Proofs.Placement
import ManagedCode.Proofs.InstallLog
import ManagedCode.Proofs.Suspension
import ManagedCode.Proofs.ObjectGraph
import ManagedCode.Proofs.Assumptions
import ManagedCode.Proofs.Devirtualization
import ManagedCode.Proofs.Framing
import ManagedCode.Proofs.Clean
import ManagedCode.Proofs.Unreachable
import ManagedCode.Proofs.Constants
import ManagedCode.Proofs.Containment
import ManagedCode.Proofs.SiteOrder
import ManagedCode.Proofs.Announcing
import ManagedCode.Proofs.ReferenceBits
import ManagedCode.Proofs.ReferenceMaps
import ManagedCode.Proofs.Slots
import ManagedCode.Proofs.RelocationRoom
import ManagedCode.Proofs.Reserves
import ManagedCode.Proofs.Overrides
import ManagedCode.Proofs.LoadedCalls
import ManagedCode.Proofs.CallerSlots
import ManagedCode.Proofs.Answers
import ManagedCode.Proofs.Deduplication
import ManagedCode.Proofs.Lockstep
import ManagedCode.Proofs.ByteOrder
import ManagedCode.Proofs.ReachableObjects
import ManagedCode.Proofs.HandleHistory
import ManagedCode.Proofs.HandlerLookup
import ManagedCode.Proofs.SafepointRuns
import ManagedCode.Proofs.BlobHistory
import ManagedCode.Proofs.PatchedDecoding
import ManagedCode.Proofs.Distances
import ManagedCode.Proofs.ReferenceIndices
