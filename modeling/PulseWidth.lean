import PulseWidth.Daemon.Latch
import PulseWidth.Engine.Rig
import PulseWidth.Main
import PulseWidth.Proofs.Chain.Outcome
import PulseWidth.Proofs.Chain.Ring
import PulseWidth.Proofs.Channel.Table
import PulseWidth.Proofs.Command.Reading
import PulseWidth.Proofs.Daemon.Course
import PulseWidth.Proofs.Daemon.Reader
import PulseWidth.Proofs.Engine.Exactness
import PulseWidth.Proofs.Engine.History
import PulseWidth.Proofs.Engine.Limits
import PulseWidth.Proofs.Engine.Requests
import PulseWidth.Proofs.Engine.Stopped
import PulseWidth.Proofs.Engine.Summary
import PulseWidth.Proofs.Memory.Inverse
import PulseWidth.Proofs.Memory.Words
import PulseWidth.Proofs.Register.PinFunction
import PulseWidth.Proofs.Replay.Quiet
import PulseWidth.Proofs.Replay.Stopping
import PulseWidth.Proofs.Replay.Waveform
import PulseWidth.Proofs.Safety.Runs
import PulseWidth.Proofs.Simulation.Calls
import PulseWidth.Proofs.Simulation.Handback
import PulseWidth.Proofs.Simulation.Journal
import PulseWidth.Proofs.Simulation.Panel
import PulseWidth.Proofs.Simulation.PinFunctions
import PulseWidth.Proofs.Simulation.Protocol
import PulseWidth.Proofs.Simulation.Settling
import PulseWidth.Proofs.Simulation.Starting
import PulseWidth.Proofs.Simulation.Trace
import PulseWidth.Proofs.Word
import PulseWidth.Proofs.Register.Slots
import PulseWidth.Proofs.Channel.Distinct
import PulseWidth.Proofs.Board.Channels
