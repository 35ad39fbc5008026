import Mpu6050.Lib.Registers
import Mpu6050.Lib.Memory
import Mpu6050.Lib.Steps
import Mpu6050.Lib.Faults
import Mpu6050.Lib.Files
import Mpu6050.Lib.Latest
import Mpu6050.Lib.RingLog
import Mpu6050.Lib.Runs
import Mpu6050.Lib.Unwind
import Mpu6050.Lib.Words
import Mpu6050.Lib.Ledger
import Mpu6050.Lib.Pairs
import Mpu6050.Lib.Counts
import Mpu6050.Lib.Sections
import Mpu6050.Lib.Retry
import Mpu6050.Lib.Shutdown
import Mpu6050.Lib.Streams
import Mpu6050.Lib.Decimal
import Mpu6050.Driver.Types
import Mpu6050.Driver.Sample
import Mpu6050.Driver.Consumers
import Mpu6050.Driver.Wq
import Mpu6050.Driver.WqSteps
import Mpu6050.Driver.Layout
import Mpu6050.Driver.System
import Mpu6050.Driver.SetUp
import Mpu6050.Driver.Device
import Mpu6050.Driver.Threads
import Mpu6050.Driver.Main
import Mpu6050.Driver.Module
import Mpu6050.Driver.Sysfs
import Mpu6050.Driver.Locking
import Mpu6050.Driver.Power
import Mpu6050.Driver.Teardown
import Mpu6050.Client.Extract
import Mpu6050.Client.Message
import Mpu6050.Client.Queues
import Mpu6050.Client.Statistic
import Mpu6050.Client.Curve
import Mpu6050.Client.Duplicate
import Mpu6050.Client.Floats
import Mpu6050.Client.Camera
import Mpu6050.Client.View
import Mpu6050.Client.Link
import Mpu6050.Client.Release
import Mpu6050.Client.Arguments
import Mpu6050.Proofs.Handler
import Mpu6050.Proofs.Consumers
import Mpu6050.Proofs.SlotBounds
import Mpu6050.Proofs.Freshness
import Mpu6050.Proofs.ReadHistory
import Mpu6050.Proofs.DeviceInit
import Mpu6050.Proofs.DeviceFaults
import Mpu6050.Proofs.DeviceFrame
import Mpu6050.Proofs.SysfsFile
import Mpu6050.Proofs.HandlerSteps
import Mpu6050.Proofs.Layout
import Mpu6050.Proofs.WqMemory
import Mpu6050.Proofs.Finishing
import Mpu6050.Proofs.RingAccess
import Mpu6050.Proofs.CleanUp
import Mpu6050.Proofs.Drain
import Mpu6050.Proofs.Forwarding
import Mpu6050.Proofs.ExportPaths
import Mpu6050.Proofs.Scaling
import Mpu6050.Proofs.Decoding
import Mpu6050.Proofs.ClientQueues
import Mpu6050.Proofs.Handshake
import Mpu6050.Proofs.Probe
import Mpu6050.Proofs.Remove
import Mpu6050.Proofs.LowPower
import Mpu6050.Proofs.RegStore
import Mpu6050.Proofs.Statistic
import Mpu6050.Proofs.Curve
import Mpu6050.Proofs.NetlinkBuffers
import Mpu6050.Proofs.Duplicate
import Mpu6050.Proofs.Pairing
import Mpu6050.Proofs.Locking
import Mpu6050.Proofs.LockHold
import Mpu6050.Proofs.Power
import Mpu6050.Proofs.Teardown
import Mpu6050.Proofs.View
import Mpu6050.Proofs.Camera
import Mpu6050.Proofs.Release
import Mpu6050.Proofs.Link
import Mpu6050.Proofs.Arguments
