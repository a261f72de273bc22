import WalkFilter.Main
import WalkFilter.Search
import WalkFilter.Proofs.Reading
import WalkFilter.Proofs.Route
import WalkFilter.Proofs.Calls
import WalkFilter.Proofs.Concatenation
import WalkFilter.Proofs.Ledger
import WalkFilter.Proofs.Halting
import WalkFilter.Proofs.Bounds
import WalkFilter.Proofs.Interleaved
import WalkFilter.Proofs.EdgeReading
import WalkFilter.Proofs.Refusal
import WalkFilter.Proofs.Quotation
import WalkFilter.Proofs.RoundTrip
import WalkFilter.Proofs.Alternatives
import WalkFilter.Proofs.Rendering
import WalkFilter.Proofs.Rearrangement
import WalkFilter.Proofs.Restriction
import WalkFilter.Proofs.Offset
import WalkFilter.Proofs.Spelling
import WalkFilter.Proofs.Outline
