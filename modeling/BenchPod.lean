import BenchPod.Gps.Calendar
import BenchPod.Net.UsbDhcpd
import BenchPod.Pins.Stepper
import BenchPod.Calibration.Commit
import BenchPod.Boot.SafeMode
import BenchPod.Bwp.Retry
import BenchPod.Bwp.Replay
import BenchPod.Bwp.Nonce
import BenchPod.Bwp.Slot
import BenchPod.Ota.Verified
import BenchPod.Ota.Watchdog
import BenchPod.Net.Reload
import BenchPod.Dap.Bounds
import BenchPod.Bwp.OtaRelay
import BenchPod.Bwp.Reader
import BenchPod.Ota.Commit
import BenchPod.Command.Scpi
import BenchPod.Capture.Refused
import BenchPod.Blob.Whole
import BenchPod.Capture.Replayed
import BenchPod.Capture.Lossless
import BenchPod.Net.ConnTx
import BenchPod.Command.Stream
import BenchPod.Dap.Exclusive
import BenchPod.Net.CloudFrames
import BenchPod.Net.Session
import BenchPod.Command.Mixed
import BenchPod.Capture.Balanced
import BenchPod.Capture.Resumed
import BenchPod.Bridge.L2fwd
import BenchPod.Store.Policy
import BenchPod.Recovery.Limits
import BenchPod.EmiLog.Kept
import BenchPod.EspRom.Reported
import BenchPod.SwdEngine.SpiMaster
import BenchPod.SwdEngine.SwdExact
import BenchPod.PsramBus.Turns
import BenchPod.Capture.Stalled
import BenchPod.DacStream.Whole
import BenchPod.DacLoop.Whole
import BenchPod.Capture.Plan
import BenchPod.DacLoop.Curve
import BenchPod.Net.WsFrame
import BenchPod.Json.Emitter
import BenchPod.Capture.I2cLa
import BenchPod.Power.Profile
import BenchPod.Uart.Escape
import BenchPod.Net.Login
import BenchPod.Dap.Retries
import BenchPod.Bwp.HmacSha256
import BenchPod.EmiLog.Record
import BenchPod.Net.B64url
import BenchPod.Net.HostedFrame
import BenchPod.Pins.LaPins
import BenchPod.Pins.SpiStream
