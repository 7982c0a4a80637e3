import FrameMerge.Control
import FrameMerge.Main
import FrameMerge.Proofs.Entries
import FrameMerge.Queue.Contents
import FrameMerge.Wire.RoundTrip
import FrameMerge.Proofs.Admission
import FrameMerge.Proofs.Run
import FrameMerge.Proofs.OutputOrder
import FrameMerge.Proofs.Conservation
import FrameMerge.Proofs.Restart
import FrameMerge.Proofs.Interleaving
import FrameMerge.Proofs.Backlog
import FrameMerge.Proofs.Reassembly
import FrameMerge.Proofs.Sources
import FrameMerge.Proofs.Numbering
import FrameMerge.Proofs.SourceOrder
import FrameMerge.Proofs.Likeness
import FrameMerge.Proofs.LoneSource
import FrameMerge.Proofs.Renewal
import FrameMerge.Proofs.Confluence
import FrameMerge.Proofs.Refusals
import FrameMerge.Proofs.Failure
import FrameMerge.Proofs.Turn
import FrameMerge.Proofs.Flush
import FrameMerge.Proofs.Reception
import FrameMerge.Proofs.Consumers
import FrameMerge.Proofs.Passage
import FrameMerge.Proofs.Startup
import FrameMerge.Proofs.Grammar
import FrameMerge.Proofs.Responses
import FrameMerge.Proofs.Overload
import FrameMerge.Proofs.Framing
import FrameMerge.Proofs.Reencoding
import FrameMerge.Proofs.Hysteresis
import FrameMerge.Proofs.Cuts
import FrameMerge.Proofs.Numerals
import FrameMerge.Proofs.EndpointText
import FrameMerge.Proofs.SourceLists
import FrameMerge.Proofs.RequestReading
import FrameMerge.Proofs.Leniency
import FrameMerge.Proofs.Lookup
import FrameMerge.Proofs.Precedence
