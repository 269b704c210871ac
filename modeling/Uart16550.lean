import Uart16550.EchoSystem.Run
import Uart16550.Fifo.Run
import Uart16550.Main
import Uart16550.Metrics.Run
import Uart16550.Proofs.Accounting
import Uart16550.Proofs.AverageFlush
import Uart16550.Proofs.BringUp
import Uart16550.Proofs.Completion
import Uart16550.Proofs.Delivery
import Uart16550.Proofs.Drain
import Uart16550.Proofs.Echo
import Uart16550.Proofs.EchoHandler
import Uart16550.Proofs.EchoLines
import Uart16550.Proofs.Feed
import Uart16550.Proofs.FlushPolicy
import Uart16550.Proofs.Identification
import Uart16550.Proofs.Independence
import Uart16550.Proofs.LineErrors
import Uart16550.Proofs.Loopback
import Uart16550.Proofs.Readback
import Uart16550.Proofs.Reception
import Uart16550.Proofs.Refusal
import Uart16550.Proofs.Registry
import Uart16550.Proofs.Reset
import Uart16550.Proofs.Rest
import Uart16550.Proofs.Retirement
import Uart16550.Proofs.Ring
import Uart16550.Proofs.Settings
import Uart16550.Proofs.Status
import Uart16550.Proofs.TableRun
import Uart16550.Proofs.Teardown
import Uart16550.Proofs.Transmission
import Uart16550.Proofs.VirtualIrq
