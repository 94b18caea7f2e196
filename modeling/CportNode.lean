import CportNode.Main
import CportNode.Stream.Writer
import CportNode.Proofs.Registry
import CportNode.Proofs.Turnover
import CportNode.Proofs.Binding
import CportNode.Proofs.Dispatch
import CportNode.Proofs.Link
import CportNode.Proofs.Reaction
import CportNode.Proofs.Answer
import CportNode.Proofs.Moves
import CportNode.Proofs.History
import CportNode.Proofs.Fifo
import CportNode.Proofs.Balance
import CportNode.Proofs.Registration
import CportNode.Proofs.Rebinding
import CportNode.Proofs.RoundTrip
import CportNode.Proofs.Chunking
import CportNode.Proofs.Refusal
import CportNode.Proofs.Sharing
import CportNode.Proofs.Framing
import CportNode.Proofs.Serving
import CportNode.Proofs.Acts
import CportNode.Proofs.Sessions
import CportNode.Proofs.I2c
import CportNode.Proofs.Spi
import CportNode.Proofs.Connecting
import CportNode.Proofs.Interrupts
import CportNode.Proofs.Lifetimes
import CportNode.Proofs.Reception
import CportNode.Proofs.Settings
import CportNode.Proofs.Finality
import CportNode.Proofs.Wiring
import CportNode.Proofs.Grammar
import CportNode.Proofs.Indifference
import CportNode.Proofs.Rejection
import CportNode.Proofs.Awaiting
import CportNode.Proofs.Correlation
import CportNode.Proofs.Confinement
import CportNode.Proofs.Sending
import CportNode.Proofs.Hosting
import CportNode.Proofs.Lines
import CportNode.Proofs.Numbering
import CportNode.Proofs.Variants
import CportNode.Proofs.BringUp
import CportNode.Proofs.Independence
import CportNode.Proofs.Digits
import CportNode.Proofs.Lookup
