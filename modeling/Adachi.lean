import Adachi.Io.BufferRuns
import Adachi.Io.Registration
import Adachi.Io.Timer
import Adachi.Kv.Backlog
import Adachi.Kv.Exchange
import Adachi.Kv.Linearizable
import Adachi.Kv.Pipeline
import Adachi.Kv.ReadBound
import Adachi.Kv.StatusField
import Adachi.Network.Acceptor
import Adachi.Network.CloseReturns
import Adachi.Network.Delivery
import Adachi.Network.Descriptors
import Adachi.Network.Dispatch
import Adachi.Network.GracefulClose
import Adachi.Network.HalfClose
import Adachi.Network.Heartbeat
import Adachi.Network.INetAddress
import Adachi.Network.LengthPrefixed
import Adachi.Network.Ownership
import Adachi.Network.PollerMask
import Adachi.Network.ReadBound
import Adachi.Network.Shutdown
import Adachi.Network.Teardown
import Adachi.Tool.EventLoopThreadPool
import Adachi.Tool.Latency
import Adachi.Tool.LogContents
import Adachi.Tool.LogRecord
import Adachi.Tool.StopLoop
