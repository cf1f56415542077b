import SC04Monitor.Lib.Run
import SC04Monitor.Lib.Scan
import SC04Monitor.Lib.FlagScan
import SC04Monitor.Lib.Batches
import SC04Monitor.Lib.Steps
import SC04Monitor.Lib.PowerLoss
import SC04Monitor.Lib.ByteMem
import SC04Monitor.Lib.Ring
import SC04Monitor.Lib.SharedCounter
import SC04Monitor.Lib.CreditScan
import SC04Monitor.Lib.WordBits
import SC04Monitor.Lib.WordMem
import SC04Monitor.Lib.Debounce
import SC04Monitor.Lib.Timeout
import SC04Monitor.Lib.Divider
import SC04Monitor.Lib.Countdown
import SC04Monitor.UserApp.DataStruct
import SC04Monitor.UserApp.AppMonitor
import SC04Monitor.UserApp.PrechargeSafety
import SC04Monitor.UserApp.AppModule
import SC04Monitor.UserApp.LogicTask
import SC04Monitor.UserApp.LogicTick
import SC04Monitor.UserApp.MonitorPara
import SC04Monitor.UserApp.ModulePara
import SC04Monitor.UserApp.ParaCompare
import SC04Monitor.UserApp.ParaRequests
import SC04Monitor.UserApp.ChargeInterlock
import SC04Monitor.UserApp.AutoDelays
import SC04Monitor.UserApp.ChargeEnable
import SC04Monitor.UserApp.OwnFault
import SC04Monitor.UserApp.Contactors
import SC04Monitor.UserApp.WakeUp
import SC04Monitor.UserApp.StatusBlock
import SC04Monitor.UserApp.Isolation
import SC04Monitor.UserApp.ChargeCommand
import SC04Monitor.UserApp.AppFault
import SC04Monitor.UserApp.FaultRun
import SC04Monitor.UserApp.CommLoss
import SC04Monitor.UserApp.SysInfo
import SC04Monitor.UserApp.FaultReport
import SC04Monitor.Can.CanApp
import SC04Monitor.Can.Fragmentation
import SC04Monitor.Can.CanQueue
import SC04Monitor.Can.TxWedge
import SC04Monitor.Can.TriggerQueue
import SC04Monitor.Can.CyclePeriod
import SC04Monitor.Can.RxEntry
import SC04Monitor.Can.RxBounds
import SC04Monitor.Can.Reassembly
import SC04Monitor.Can.Interleaving
import SC04Monitor.Can.CanFault
import SC04Monitor.Can.LinkTimeout
import SC04Monitor.Can.NodeTimeout
import SC04Monitor.Modbus.RegData
import SC04Monitor.Modbus.RegMap
import SC04Monitor.Flash.Storage
import SC04Monitor.Flash.WriteRecord
import SC04Monitor.Flash.RecordLog
import SC04Monitor.Flash.Regions
import SC04Monitor.Flash.ReadBack
import SC04Monitor.Flash.WriteRetry
import SC04Monitor.Flash.Recovery
import SC04Monitor.Flash.WriteBuffer
import SC04Monitor.UserApp.ParaLoad
import SC04Monitor.Modbus.RegBounds
import SC04Monitor.Modbus.RoundTrip
import SC04Monitor.Modbus.Polling
import SC04Monitor.Modbus.GroupedWrite
import SC04Monitor.Modbus.Handover
import SC04Monitor.Modbus.Publication
import SC04Monitor.Record.AppFlash
import SC04Monitor.Record.ParStore
import SC04Monitor.Drivers.SysTimer
import SC04Monitor.Drivers.AdChannels
import SC04Monitor.Lib.LevelFilter
import SC04Monitor.Lib.Calendar
import SC04Monitor.Lib.PointerRing
import SC04Monitor.Drivers.TempFilter
import SC04Monitor.Drivers.DigitalInput
import SC04Monitor.Drivers.Pt100
import SC04Monitor.Drivers.OwnFlash
import SC04Monitor.Drivers.RtcClock
import SC04Monitor.Record.RecordQueue
import SC04Monitor.Lib.Crc
import SC04Monitor.Lib.TrimmedMean
import SC04Monitor.Record.Crc16
import SC04Monitor.Drivers.SampleFilters
import SC04Monitor.Modbus.Coils
import SC04Monitor.Modbus.RtuFrames
import SC04Monitor.Modbus.SlaveSafety
import SC04Monitor.Modbus.Session
import SC04Monitor.Modbus.Noise
import SC04Monitor.Modbus.Wire
import SC04Monitor.Modbus.LineCommands
import SC04Monitor.Lib.ByteStuffing
import SC04Monitor.Lib.Capture
import SC04Monitor.PcMaster.Safety
import SC04Monitor.PcMaster.ReadBack
import SC04Monitor.PcMaster.Recording
import SC04Monitor.PcMaster.SerialServices
