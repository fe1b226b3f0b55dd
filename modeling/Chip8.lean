import Chip8.Machine.Operation
import Chip8.Keyboard
import Chip8.Main
import Chip8.Proofs.KeyWait
import Chip8.Proofs.Calls
import Chip8.Proofs.Restart
import Chip8.Proofs.Faults
import Chip8.Proofs.FaultReports
import Chip8.Proofs.Drawing
import Chip8.Proofs.Redraw
import Chip8.Proofs.Independence
import Chip8.Proofs.Timers
import Chip8.Proofs.RandomBytes
import Chip8.Proofs.Commuting
import Chip8.Proofs.Containment
import Chip8.Proofs.Superposition
import Chip8.Proofs.DrawStep
import Chip8.Proofs.Footprint
import Chip8.Proofs.Arithmetic
import Chip8.Proofs.ControlFlow
import Chip8.Proofs.Transfers
import Chip8.Proofs.Loading
import Chip8.Proofs.Encoding
import Chip8.Proofs.Holds
import Chip8.Proofs.KeyHistory
import Chip8.Proofs.Renderings
import Chip8.Proofs.Views
import Chip8.Proofs.Arguments
import Chip8.Proofs.Bookkeeping
