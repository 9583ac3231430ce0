import PinBridge.Channel.Choice
import PinBridge.Main
import PinBridge.Proofs.Receiver.Stream
import PinBridge.Proofs.Line.Delivery
import PinBridge.Proofs.Line.Retry
import PinBridge.Proofs.Receiver.Handled
import PinBridge.Proofs.Wire.Image
import PinBridge.Proofs.Session.Response
import PinBridge.Proofs.Session.Events
import PinBridge.Proofs.Session.Drain
import PinBridge.Proofs.Session.Boards
import PinBridge.Proofs.Session.Output
import PinBridge.Proofs.Session.Diary
import PinBridge.Proofs.Session.Chunks
import PinBridge.Proofs.Receiver.Idle
import PinBridge.Proofs.Session.HardReset
import PinBridge.Proofs.Session.Pieces
import PinBridge.Proofs.Tool.Simulation
import PinBridge.Proofs.Wire.Widths
import PinBridge.Proofs.Wire.Streams
import PinBridge.Proofs.Wire.Canonical
import PinBridge.Proofs.Session.Echo
import PinBridge.Proofs.Queue.Fifo
import PinBridge.Proofs.Channel.Tapped
import PinBridge.Proofs.Session.Connection
import PinBridge.Proofs.Session.InFlight
import PinBridge.Proofs.Receiver.Standing
import PinBridge.Proofs.Session.Fresh
import PinBridge.Proofs.Session.Producers
import PinBridge.Proofs.Session.Crew
import PinBridge.Proofs.Session.Halt
import PinBridge.Proofs.Session.Recoveries
import PinBridge.Proofs.Session.Serving
import PinBridge.Proofs.Channel.Calls
import PinBridge.Proofs.Session.Checks
import PinBridge.Proofs.Channel.Written
import PinBridge.Proofs.Channel.Count
import PinBridge.Proofs.Session.Sending
import PinBridge.Proofs.Session.Ticks
import PinBridge.Proofs.Text.Spelling
import PinBridge.Proofs.Tool.ExitCode
import PinBridge.Proofs.Settings.Overrides
import PinBridge.Proofs.Board.Backlog
import PinBridge.Proofs.Receiver.Careful
