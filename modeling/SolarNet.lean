import SolarNet.Lib.Run
import SolarNet.Base.BufferFifo
import SolarNet.Net.TimerQueuePass
import SolarNet.Net.EventLoop
import SolarNet.Net.EventLoopRuns
import SolarNet.Net.Channel
import SolarNet.Transport.TcpConnection
import SolarNet.Transport.ConnectionOutput
import SolarNet.Transport.ConnectionLoop
import SolarNet.Transport.Lifecycle
import SolarNet.Transport.LifecycleRuns
import SolarNet.Transport.StaleDispatch
import SolarNet.Transport.ServerStop
import SolarNet.Net.TimerSelfCancel
import SolarNet.Transport.FullyStopped
import SolarNet.Transport.HalfClose
import SolarNet.Net.EpollInterest
import SolarNet.Base.ThreadPool
import SolarNet.Base.ThreadPoolRuns
import SolarNet.Base.ThreadPoolWait
import SolarNet.Transport.ServerMain
import SolarNet.Transport.StopInCallback
import SolarNet.Transport.StopSignal
import SolarNet.Transport.ServerPool
import SolarNet.Transport.ServerPoolInvariant
import SolarNet.Transport.PoolQuit
import SolarNet.Transport.PoolRefinement
import SolarNet.Transport.ServerRefinement
import SolarNet.Net.TimerCancel
import SolarNet.Lib.Signed
import SolarNet.Net.TimeRange
import SolarNet.Net.TimerExpiry
import SolarNet.Net.EventLoopQuit
import SolarNet.Base.BufferPrepend
import SolarNet.Base.BufferItems
import SolarNet.Base.BufferGrowth
import SolarNet.Base.BufferLines
import SolarNet.Net.EventLoopThread
import SolarNet.Net.EventLoopThreadStart
import SolarNet.Net.EventLoopThreadStop
import SolarNet.Transport.Socket
import SolarNet.Lib.Cyclic
import SolarNet.Net.EventLoopThreadPool
import SolarNet.Net.RoundRobin
import SolarNet.Lib.FirstDifference
import SolarNet.Transport.HighWaterMark
import SolarNet.Transport.InetAddress
import SolarNet.Lib.Text
import SolarNet.Transport.ConnectionTable
import SolarNet.Lib.Termination
import SolarNet.Net.TimerPassEnds
import SolarNet.Net.TimerPeriods
import SolarNet.Transport.ConnectDestroyed
import SolarNet.Net.TimerWake
import SolarNet.Transport.ConnectionInput
import SolarNet.Transport.ConnectionLines
import SolarNet.Transport.SendOrder
import SolarNet.Transport.StopCompletes
import SolarNet.Base.ThreadPoolDrain
import SolarNet.Net.EpollPoll
import SolarNet.Transport.Acceptor
import SolarNet.Base.Logger
import SolarNet.Base.BufferMemory
import SolarNet.Transport.ConnectionLifetime
import SolarNet.Transport.Duplex
import SolarNet.Base.Thread
import SolarNet.Transport.InetText
import SolarNet.Transport.Echo
