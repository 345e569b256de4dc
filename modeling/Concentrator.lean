import Concentrator.Lib.Prog
import Concentrator.Lib.Layout
import Concentrator.DeviceTable.Basic
import Concentrator.DeviceTable.Steps
import Concentrator.DeviceTable.History
import Concentrator.Acquisition.Frame
import Concentrator.Acquisition.Grammar
import Concentrator.Acquisition.Walk
import Concentrator.Lib.Fifo
import Concentrator.Lib.Lts
import Concentrator.Acquisition.Pool
import Concentrator.Comms.Protocol
import Concentrator.Comms.Dispatch
import Concentrator.Comms.Stages
import Concentrator.Comms.Cycle
import Concentrator.Comms.Discipline
import Concentrator.Comms.Acknowledge
import Concentrator.Comms.Once
import Concentrator.Comms.Order
import Concentrator.Comms.Fragmentation
import Concentrator.Comms.Snapshot
import Concentrator.Comms.Deferral
import Concentrator.Comms.Relay
import Concentrator.Bench.UplinkProtocol
import Concentrator.Bench.RoundTrip
import Concentrator.Lib.Incremental
import Concentrator.Bench.UplinkServer
import Concentrator.Hal.SocketLink
import Concentrator.Hal.SocketStream
import Concentrator.Comms.OneCycle
import Concentrator.Eda.Delivery
import Concentrator.Hal.Backend
import Concentrator.App.StateMachine
import Concentrator.App.Backoff
import Concentrator.Comms.Service
import Concentrator.Comms.ServiceRule
import Concentrator.Comms.Header
import Concentrator.System.Basic
import Concentrator.System.Discipline
import Concentrator.System.Tokens
import Concentrator.System.LinkLoss
import Concentrator.System.NetworkTrouble
import Concentrator.System.JoinLoop
import Concentrator.SystemDiagnostics.Service
import Concentrator.Firmware.Basic
import Concentrator.Firmware.Discipline
import Concentrator.Firmware.OffAir
import Concentrator.Firmware.HardError
import Concentrator.DeviceTable.Unreported
import Concentrator.Firmware.Collecting
import Concentrator.Firmware.Losses
import Concentrator.Comms.Course
import Concentrator.Comms.BootFlag
import Concentrator.Comms.Numbering
import Concentrator.Comms.Ages
import Concentrator.Comms.Heartbeat
import Concentrator.Comms.Silence
import Concentrator.Firmware.Scanning
import Concentrator.Hal.Reassociation
import Concentrator.Hal.Association
import Concentrator.Firmware.RetryTimer
import Concentrator.Lib.Adt
import Concentrator.Utils.Queue
import Concentrator.Hal.ParseHex
import Concentrator.App.Machine
import Concentrator.Hal.Lorawan
import Concentrator.Comms.Budget
import Concentrator.Firmware.Uplinks
import Concentrator.Firmware.Stream
import Concentrator.Firmware.Leds
import Concentrator.Comms.Turn
import Concentrator.Firmware.BringUp
import Concentrator.Firmware.PowerOn
import Concentrator.Lib.Reduction
import Concentrator.Lib.Linearize
import Concentrator.DeviceTable.Shared
import Concentrator.DeviceTable.Linearizable
import Concentrator.Lib.Progress
import Concentrator.DeviceTable.Progress
