import Culina.Wire
import Culina.Crc
import Culina.Layout
import Culina.Framing
import Culina.ParserSoundness
import Culina.Writer
import Culina.Runs
import Culina.Ports
import Culina.SerialLink
import Culina.Drives
import Culina.Commands
import Culina.Safety
import Culina.Supervision
import Culina.Lid
import Culina.Envelope
import Culina.FaultLatch
import Culina.LidGuard
import Culina.Services
import Culina.Client
import Culina.Cooking
import Culina.Counters
import Culina.Packets
import Culina.Sessions
import Culina.ShutdownProgress
import Culina.FailureReport
import Culina.Restart
import Culina.Correlation
import Culina.Appliance
import Culina.AcknowledgedShutdown
import Culina.OutputsOff
import Culina.HeaterWindup
import Culina.ShiftRegister
import Culina.BurstDetection
import Culina.Fifo
import Culina.TransmitQueue
import Culina.Resynchronisation
import Culina.GivingUp
import Culina.WireTimeout
import Culina.Acceptance
import Culina.WholeFrames
import Culina.Heartbeat
import Culina.LinkLoss
import Culina.CStrings
import Culina.RecipeParser
import Culina.Programs
import Culina.RecipeCommands
import Culina.ClockShift
import Culina.SessionShift
import Culina.SlewLimit
import Culina.DriveEnvelope
import Culina.FaultEntries
import Culina.GrantedSpeed
import Culina.Chunks
import Culina.OtaVerification
import Culina.RecentHistory
import Culina.TelemetryWindows
import Culina.RecipeValidation
import Culina.Overtemperature
import Culina.FaultReports
import Culina.RecipeOrder
import Culina.TurboRelease
import Culina.WeighSteps
import Culina.BoundedQueue
import Culina.Rings
import Culina.Transport
import Culina.Lines
import Culina.ControlServer
import Culina.CaptureDump
import Culina.CaptureAgreement
import Culina.Relaxation
import Culina.Plant
import Culina.MainLoop
import Culina.BowlTemperature
import Culina.BladeSpeed
import Culina.Replies
import Culina.Simulator
import Culina.Lockstep
import Culina.Device
import Culina.RemoteCalls
import Culina.Occupancy
import Culina.Freshness
import Culina.SessionTime
import Culina.Alarms
import Culina.CommandLine
import Culina.Scripts
