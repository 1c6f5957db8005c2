import MonitorSystem.Workers
import MonitorSystem.TaskFifo
import MonitorSystem.PopWindow
import MonitorSystem.Backlog
import MonitorSystem.Framing
import MonitorSystem.Registry
import MonitorSystem.CheckOnline
import MonitorSystem.ClientTable
import MonitorSystem.AckRace
import MonitorSystem.Alarms
import MonitorSystem.HeartBeatLoop
import MonitorSystem.Lifetime
import MonitorSystem.FailedRecv
import MonitorSystem.Admission
import MonitorSystem.UdpAccept
import MonitorSystem.Insert
import MonitorSystem.Payload
import MonitorSystem.Lib.Sql
import MonitorSystem.Statement
import MonitorSystem.Consumption
import MonitorSystem.Delivery
import MonitorSystem.Syslog
import MonitorSystem.SendData
import MonitorSystem.Collection
import MonitorSystem.Persistence
import MonitorSystem.Isolation
import MonitorSystem.Lib.Records
import MonitorSystem.RoundTrip
import MonitorSystem.ReplayLocals
import MonitorSystem.ReplayRace
import MonitorSystem.Relogin
import MonitorSystem.Trigger
import MonitorSystem.Login
import MonitorSystem.Reconnect
import MonitorSystem.Accounts
import MonitorSystem.PoolThreads
import MonitorSystem.PoolCalls
import MonitorSystem.PoolScan
import MonitorSystem.ChangeNodeNum
import MonitorSystem.PoolSize
import MonitorSystem.Conf
import MonitorSystem.Serving
import MonitorSystem.Descriptors
import MonitorSystem.Startup
import MonitorSystem.Memlog
import MonitorSystem.CpuLog
import MonitorSystem.Lib.Mutex
import MonitorSystem.Lib.Channel
import MonitorSystem.Pipeline
import MonitorSystem.QueueLock
import MonitorSystem.ReloginLock
import MonitorSystem.StoreForward
import MonitorSystem.Answering
import MonitorSystem.CJsonTree
import MonitorSystem.EndToEnd
import MonitorSystem.Lib.Fallible
import MonitorSystem.PrintBuffer
import MonitorSystem.Printing
import MonitorSystem.Leaks
