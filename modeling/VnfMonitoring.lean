import VnfMonitoring.ConfComment
import VnfMonitoring.ConfFrame
import VnfMonitoring.ConfNumber
import VnfMonitoring.ConfPeriod
import VnfMonitoring.Dbmb
import VnfMonitoring.DupCheck
import VnfMonitoring.HostAccept
import VnfMonitoring.HostBaremetal
import VnfMonitoring.HostDatabase
import VnfMonitoring.HostFifoWait
import VnfMonitoring.HostHang
import VnfMonitoring.HostInfo
import VnfMonitoring.HostMemory
import VnfMonitoring.HostPeriodic
import VnfMonitoring.HostPoll
import VnfMonitoring.HostPristine
import VnfMonitoring.HostQueries
import VnfMonitoring.HostReceive
import VnfMonitoring.HostRows
import VnfMonitoring.HostShutdown
import VnfMonitoring.HostWatchdog
import VnfMonitoring.Logdir
import VnfMonitoring.Mqipc
import VnfMonitoring.NetworkProcesses
import VnfMonitoring.NetworkReplies
import VnfMonitoring.NetworkSystems
import VnfMonitoring.PqmbQuery
import VnfMonitoring.TcpOutcome
import VnfMonitoring.TimerClock
import VnfMonitoring.TimerIdQueue
import VnfMonitoring.TimerLeak
import VnfMonitoring.TimerList
import VnfMonitoring.TimerPass
import VnfMonitoring.VmctDescriptors
import VnfMonitoring.VmctHeartbeat
import VnfMonitoring.VmctIpc
import VnfMonitoring.VmctTimer
import VnfMonitoring.Xprint
