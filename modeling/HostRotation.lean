import HostRotation.CheckMethod.Json
import HostRotation.Config.Shown
import HostRotation.Main
import HostRotation.Selection.Rounds
import HostRotation.Proofs.CheckMethod.Readers
import HostRotation.Proofs.Command.Lines
import HostRotation.Proofs.Command.Outcome
import HostRotation.Proofs.Command.Secrecy
import HostRotation.Proofs.Config.Language
import HostRotation.Proofs.Config.NumberReaders
import HostRotation.Proofs.Config.RoundTrip
import HostRotation.Proofs.Cursors.Consecutive
import HostRotation.Proofs.Cursors.History
import HostRotation.Proofs.Properties.Delivery
import HostRotation.Proofs.Properties.Layers
import HostRotation.Proofs.Properties.Numbers
import HostRotation.Proofs.Selection.Fairness
import HostRotation.Proofs.Selection.Interleaving
import HostRotation.Proofs.Selection.Load
import HostRotation.Proofs.Selection.Logs
import HostRotation.Proofs.Selection.Messages
import HostRotation.Proofs.Selection.Turns
import HostRotation.Proofs.Selection.Visits
import HostRotation.Proofs.Selection.Words
import HostRotation.Proofs.Snapshot.RoundTrip
import HostRotation.Proofs.Tally.Bounds
import HostRotation.Proofs.Tally.History
import HostRotation.Proofs.Tally.Readings
