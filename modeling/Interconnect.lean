import Interconnect.Width
import Interconnect.Registry
import Interconnect.Fingerprint
import Interconnect.Description.Basic
import Interconnect.Interface
import Interconnect.Showcase
import Interconnect.Proofs.Inversion
import Interconnect.Proofs.Denotation
import Interconnect.Proofs.Field
import Interconnect.Proofs.Endpoint
import Interconnect.Proofs.MemoryMapped
import Interconnect.Proofs.Conduit
import Interconnect.Proofs.Blueprint
import Interconnect.Proofs.Rebuild
import Interconnect.Proofs.Representation
import Interconnect.Proofs.Session
import Interconnect.Proofs.Replay
import Interconnect.Proofs.Validity.Point
import Interconnect.Proofs.Acceptance
import Interconnect.Proofs.Atomicity
import Interconnect.Proofs.History
import Interconnect.Proofs.EndpointCoherence
import Interconnect.Proofs.MemoryMappedCoherence
import Interconnect.Proofs.Elaboration
import Interconnect.Proofs.Symbols
import Interconnect.Proofs.FirstUse
import Interconnect.Proofs.Assignment
import Interconnect.Proofs.Lifecycle
import Interconnect.Proofs.Monotone
import Interconnect.Proofs.Completion
import Interconnect.Proofs.Frame
import Interconnect.Proofs.Stores
import Interconnect.Proofs.SessionStores
import Interconnect.Proofs.Reordering
import Interconnect.Proofs.Encoding
import Interconnect.Proofs.Fingerprint
import Interconnect.Proofs.Form
import Interconnect.Proofs.RoundTrip
import Interconnect.Proofs.AllowedRange
import Interconnect.Proofs.LastWrites
import Interconnect.Proofs.Slots
import Interconnect.Proofs.Loading
import Interconnect.Proofs.Naming
import Interconnect.Proofs.ClockPair
import Interconnect.Proofs.Spelling
import Interconnect.Proofs.Respelling
import Interconnect.Proofs.Outline
import Interconnect.Proofs.Rounding
import Interconnect.Proofs.Shortest
import Interconnect.Proofs.Frequency
import Interconnect.Proofs.Hertz
import Interconnect.Proofs.Dump
