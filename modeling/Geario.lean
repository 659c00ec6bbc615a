import Geario.Wheel.Early
import Geario.Wheel.Flags
import Geario.Wheel.Books
import Geario.Buffers.ByteQueue
import Geario.Rt.Queue
import Geario.Rt.PoolTasks
import Geario.Io.Waiting
import Geario.Polling.Frames
import Geario.Polling.Fill
import Geario.Polling.HangUp
import Geario.Polling.Memory
import Geario.Polling.Progress
import Geario.Iocp.Read
import Geario.Uring.Submit
import Geario.Uring.Order
import Geario.Uring.Pause
import Geario.Uring.Input
import Geario.Uring.Storage
import Geario.Uring.Memory
import Geario.Accept.Pause
import Geario.Accept.Listeners
import Geario.Server.Items
import Geario.Server.Stop
import Geario.Server.Control
import Geario.Service.Ready
import Geario.Server.Runner
import Geario.Dispatcher.Timeouts
import Geario.Channel.Bstream
import Geario.Rt.Signals
import Geario.Server.Services
import Geario.Polling.Interest
import Geario.Polling.Release
import Geario.Service.ConfigMemory
import Geario.Io.Release
import Geario.Net.ShortWrite
import Geario.Rt.Values
import Geario.Buffers.Compare
import Geario.Buffers.Advance
import Geario.Buffers.Checked
import Geario.Buffers.Closure
import Geario.Buffers.ReadBuf
import Geario.Channel.Receiver
import Geario.Net.Connect
import Geario.Tls.Output
