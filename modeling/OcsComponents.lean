import OcsComponents.Status.Code
import OcsComponents.OneWire.RomCode
import OcsComponents.Lib.BitTrie
import OcsComponents.OneWire.RomCodeScanner
import OcsComponents.OneWire.Walk
import OcsComponents.OneWire.Search
import OcsComponents.OneWire.Retrace
import OcsComponents.OneWire.Enumeration
import OcsComponents.Lib.WhileLoop
import OcsComponents.Lib.WrappingClock
import OcsComponents.OneWire.Assertions
import OcsComponents.Pipeline.RomSearch
import OcsComponents.Scheduler.AsyncFuncScheduler
import OcsComponents.Scheduler.Delivery
import OcsComponents.Scheduler.Reentry
import OcsComponents.Sensor.Ds18b20.Store
import OcsComponents.Pipeline.Ds18b20Requests
import OcsComponents.Pipeline.FileResponse
import OcsComponents.Pipeline.WebGui
import OcsComponents.Lib.KeyedRecord
import OcsComponents.Control.FsmBlock
import OcsComponents.Control.PowerLoss
import OcsComponents.Control.Sessions
import OcsComponents.Control.FsmStore
import OcsComponents.Control.TwoPhase
import OcsComponents.Control.Withdrawal
import OcsComponents.Net.StaNetwork
import OcsComponents.Core.CondWake
import OcsComponents.Core.FutureWait
import OcsComponents.System.LowPowerDelayer
import OcsComponents.Scheduler.PeriodicTaskScheduler
import OcsComponents.Sensor.Ds18b20.Persistence
import OcsComponents.Diagnostic.Sessions
import OcsComponents.Diagnostic.Lifetime
import OcsComponents.Core.Version
import OcsComponents.Algo.UriOps
import OcsComponents.Storage.NvsStorage
import OcsComponents.Sensor.Sht41.Sensor
import OcsComponents.Sensor.Bme280.Sensor
import OcsComponents.Algo.CrcDetection
import OcsComponents.Scheduler.TimerEvents
import OcsComponents.Sensor.Soil.StatusHistory
import OcsComponents.OneWire.AnyLine
import OcsComponents.Core.OwnSignal
import OcsComponents.Sensor.Ds18b20.SerialNumberText
import OcsComponents.Control.Restore
import OcsComponents.Core.StreamCalls
import OcsComponents.OneWire.ByteTransfer
import OcsComponents.OneWire.LineHold
import OcsComponents.Sensor.Bme280.SpiTransceiver
import OcsComponents.Sensor.Soil.StatusPosition
import OcsComponents.Sensor.Bme280.Calibration
import OcsComponents.Lib.Numeral
import OcsComponents.Core.VersionText
import OcsComponents.Algo.SystemTime
import OcsComponents.Pipeline.StaticFiles
import OcsComponents.Pipeline.LocalNetwork
import OcsComponents.Storage.NvsMap
import OcsComponents.Sensor.Soil.PublishedStatus
import OcsComponents.Lib.Checked
import OcsComponents.Sensor.Bme280.Overflow
import OcsComponents.Fmt.Json
import OcsComponents.Pipeline.JsonFmt
import OcsComponents.Pipeline.JsonEndpoints
import OcsComponents.Pipeline.Ds18b20Closures
import OcsComponents.Lib.Decimal
import OcsComponents.Algo.UriQuery
import OcsComponents.OneWire.Simulation
import OcsComponents.OneWire.Slots
import OcsComponents.System.DefaultRandomizer
import OcsComponents.System.BusyLoopDelayer
import OcsComponents.Pipeline.QueryHandlers
import OcsComponents.Pipeline.SystemCalls
import OcsComponents.Pipeline.SensorLine
import OcsComponents.Pipeline.SystemCounters
import OcsComponents.Sensor.Ds18b20.Registers
