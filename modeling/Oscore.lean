import Oscore.Diagnostic
import Oscore.Endpoint.Resolution
import Oscore.PackedWindow
import Oscore.Proofs.NonceLayout
import Oscore.Proofs.WindowHistory
import Oscore.Proofs.PackedHistory
import Oscore.Proofs.Operation
import Oscore.Proofs.Reachable
import Oscore.Proofs.NonceSpaces
import Oscore.Proofs.Reservations
import Oscore.Proofs.SenderIdentity
import Oscore.Proofs.NonceUniqueness
import Oscore.Proofs.Acceptances
import Oscore.Proofs.LawfulActions
import Oscore.Proofs.ProtectedMessages
import Oscore.Proofs.Delivery
import Oscore.Proofs.Mirrors
import Oscore.Proofs.Pairs
import Oscore.Proofs.Observers
import Oscore.Proofs.Persistence
import Oscore.Proofs.Journals
import Oscore.Proofs.Registration
import Oscore.Proofs.ItemReading
import Oscore.Proofs.ParameterCodec
import Oscore.Proofs.GroupKeys
import Oscore.Proofs.Refusals
import Oscore.Proofs.ContextNumbers
import Oscore.Proofs.EntityLimits
import Oscore.Proofs.LateNumbers
import Oscore.Proofs.NonceConstruction
import Oscore.Proofs.ReservationRuns
import Oscore.Proofs.PartialIvCodec
import Oscore.Proofs.DomainSeparation
import Oscore.Proofs.GroupConstruction
import Oscore.Proofs.GroupAcceptance
import Oscore.Proofs.ReplayPaths
import Oscore.Proofs.LookupDecisions
import Oscore.Proofs.LookupLearning
import Oscore.Proofs.ChannelHistory
import Oscore.Proofs.ChannelPrograms
import Oscore.Proofs.ParameterLabels
import Oscore.Proofs.SealedTexts
import Oscore.Proofs.Duplicates
import Oscore.Proofs.TransferHistory
import Oscore.Proofs.DiagnosticReading
import Oscore.Proofs.Disclosure
