import Graft.Main
import Graft.Proofs.ArtifactNames
import Graft.World
import Graft.Proofs.LatestBindings
import Graft.Proofs.Reachable
import Graft.Proofs.Agreement
import Graft.Proofs.Ancestors
import Graft.Proofs.HintText
import Graft.Proofs.Separators
import Graft.Proofs.SignatureText
import Graft.Proofs.FingerprintText
import Graft.Proofs.Location
import Graft.Proofs.FileContents
import Graft.Proofs.Generation
import Graft.Proofs.JsonText
import Graft.Proofs.MarksKept
import Graft.Proofs.Skipping
import Graft.Proofs.FailedRegistration
import Graft.Proofs.Composition
import Graft.Proofs.Reaching
import Graft.Proofs.Orderly
import Graft.Proofs.MarksFrame
import Graft.Proofs.Retrying
import Graft.Proofs.MarksHistory
import Graft.Proofs.MarksSteps
import Graft.Proofs.MarksMirror
import Graft.Proofs.Recording
import Graft.Proofs.MarksFaults
import Graft.Proofs.Written
import Graft.Proofs.ArtifactReport
import Graft.Proofs.Growing
import Graft.Proofs.Precise
import Graft.Proofs.Containment
import Graft.Proofs.Settling
import Graft.Proofs.StaleArtifacts
import Graft.Proofs.Workshop
import Graft.Proofs.WrittenOnce
import Graft.Proofs.Transparency
import Graft.Proofs.Decoding
import Graft.Proofs.Moments
import Graft.Proofs.Muting
import Graft.Proofs.Invocation
import Graft.Proofs.Instances
import Graft.Proofs.Arguments
import Graft.Proofs.Parameters
import Graft.Proofs.MarksIndicators
import Graft.Proofs.Twins
import Graft.Proofs.Batches
import Graft.Proofs.Overwriting
import Graft.Proofs.Interfaces
import Graft.Proofs.LastWrites
import Graft.Proofs.Lookup
import Graft.Proofs.Interleaving
import Graft.Proofs.Lengthening
import Graft.Proofs.NamespaceText
import Graft.Proofs.SharedMarks
import Graft.Proofs.SameFiles
import Graft.Proofs.Flushing
