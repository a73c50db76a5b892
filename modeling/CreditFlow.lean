import CreditFlow.Line.Running
import CreditFlow.Scenario.Reading
import CreditFlow.Scenario.Writing
import CreditFlow.Scenario.Pulling
import CreditFlow.Scenario.Pumping
import CreditFlow.Scenario.Piping
import CreditFlow.Scenario.Playing
import CreditFlow.Scenario.Recording
import CreditFlow.Scenario.Settings
import CreditFlow.Proofs.InletContents
import CreditFlow.Proofs.InletTraffic
import CreditFlow.Proofs.InletWindow
import CreditFlow.Proofs.OutletTraffic
import CreditFlow.Proofs.PipeFidelity
import CreditFlow.Proofs.PipeBackpressure
import CreditFlow.Proofs.OutletSignals
import CreditFlow.Proofs.OutletWriting
import CreditFlow.Proofs.WriterTraffic
import CreditFlow.Proofs.OutletCancellation
import CreditFlow.Proofs.PlayerProgress
import CreditFlow.Proofs.InletClosing
import CreditFlow.Proofs.InletCancellation
import CreditFlow.Proofs.InletSubscriptions
import CreditFlow.Proofs.PullDrop
import CreditFlow.Proofs.PullFidelity
import CreditFlow.Proofs.PullWindow
import CreditFlow.Proofs.PumpCancellation
import CreditFlow.Proofs.PumpOutcome
import CreditFlow.Proofs.RelayFidelity
import CreditFlow.Proofs.PipeCancellation
import CreditFlow.Proofs.InletEnding
import CreditFlow.Proofs.InletMetadata
import CreditFlow.Proofs.OutletClosing
import CreditFlow.Proofs.Interruption
import CreditFlow.Proofs.CellWaking
import CreditFlow.Proofs.PumpRefusal
import CreditFlow.Proofs.InletPortions
import CreditFlow.Proofs.MetadataViews
import CreditFlow.Proofs.PlayerScript
import CreditFlow.Proofs.Granting
